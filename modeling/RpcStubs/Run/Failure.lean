import RpcStubs.Failure

namespace RpcStubs

inductive RunFailure where
  | undecodableRequest
  | nothingToGenerate
  | unreadableSet (path : String)
  | undecodableSet (path : String)
  | escapingName (name : String)
  | uncreatedDirectory (path : String)
  | unwrittenFile (path : String)
  | generation (failure : Failure)
  deriving DecidableEq, Repr

def RunFailure.message : RunFailure → String
  | .undecodableRequest => "Failed to decode CodeGeneratorRequest"
  | .nothingToGenerate => "no files to generate"
  | .unreadableSet path => "Failed to read descriptor set: " ++ Text.quote path
  | .undecodableSet path => "Failed to decode FileDescriptorSet: " ++ Text.quote path
  | .escapingName name => "Generated file name escapes the output directory: " ++ name
  | .uncreatedDirectory path => "Failed to create directory: " ++ Text.quote path
  | .unwrittenFile path => "Failed to write generated file: " ++ Text.quote path
  | .generation failure => failure.message

end RpcStubs
