namespace RpcStubs.Wire

inductive ErrorCode where
  | canceled | unknown | invalidArgument | deadlineExceeded | notFound | badRoute
  | alreadyExists | permissionDenied | unauthenticated | resourceExhausted | failedPrecondition
  | aborted | outOfRange | unimplemented | internal | unavailable | dataLoss | noError
  deriving DecidableEq, Repr

namespace ErrorCode

def all : List ErrorCode := [
  .canceled, .unknown, .invalidArgument, .deadlineExceeded, .notFound, .badRoute, .alreadyExists,
  .permissionDenied, .unauthenticated, .resourceExhausted, .failedPrecondition, .aborted,
  .outOfRange, .unimplemented, .internal, .unavailable, .dataLoss, .noError]

def word : ErrorCode → String
  | .canceled => "canceled"
  | .unknown => "unknown"
  | .invalidArgument => "invalid_argument"
  | .deadlineExceeded => "deadline_exceeded"
  | .notFound => "not_found"
  | .badRoute => "bad_route"
  | .alreadyExists => "already_exists"
  | .permissionDenied => "permission_denied"
  | .unauthenticated => "unauthenticated"
  | .resourceExhausted => "resource_exhausted"
  | .failedPrecondition => "failed_precondition"
  | .aborted => "aborted"
  | .outOfRange => "out_of_range"
  | .unimplemented => "unimplemented"
  | .internal => "internal"
  | .unavailable => "unavailable"
  | .dataLoss => "data_loss"
  | .noError => ""

def httpStatus : ErrorCode → Nat
  | .canceled | .deadlineExceeded => 408
  | .invalidArgument | .outOfRange => 400
  | .notFound | .badRoute => 404
  | .alreadyExists | .aborted => 409
  | .permissionDenied | .resourceExhausted => 403
  | .unauthenticated => 401
  | .failedPrecondition => 412
  | .unimplemented => 501
  | .unavailable => 503
  | .unknown | .internal | .dataLoss => 500
  | .noError => 200

def ofWord? (s : String) : Option ErrorCode := all.find? (·.word == s)

end ErrorCode

end RpcStubs.Wire
