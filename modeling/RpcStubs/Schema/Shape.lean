import RpcStubs.Proto.Message

namespace RpcStubs.Schema

open Proto

inductive DescriptorType where
  | fileSet | file | message | extensionRange | reservedRange | extensionRangeOptions
  | field | oneof | enumeration | enumReservedRange | enumValue | service | method
  | fileOptions | messageOptions | fieldOptions | plainOptions | enumOptions | enumValueOptions
  | serviceOptions | methodOptions | uninterpreted | namePart | sourceInfo | location
  | pluginRequest | compilerVersion | pluginResponse | responseFile
  deriving DecidableEq, Repr

abbrev Spec := FieldSpec DescriptorType

def optional (number : Nat) (s : Scalar) : Spec := ⟨number, .optional, .scalar s⟩

def required (number : Nat) (s : Scalar) : Spec := ⟨number, .required, .scalar s⟩

def repeated (number : Nat) (s : Scalar) : Spec := ⟨number, .repeated, .scalar s⟩

def packed (number : Nat) (s : Scalar) : Spec := ⟨number, .packed, .scalar s⟩

def single (number : Nat) (type : DescriptorType) : Spec := ⟨number, .optional, .message type⟩

def many (number : Nat) (type : DescriptorType) : Spec := ⟨number, .repeated, .message type⟩

def withUninterpreted (specs : List Spec) : List Spec := specs ++ [many 999 .uninterpreted]

def fileOptionFields : List Spec := [
  optional 1 .text, optional 8 .text, optional 9 .int32, optional 10 .bool, optional 11 .text,
  optional 16 .bool, optional 17 .bool, optional 18 .bool, optional 20 .bool, optional 23 .bool,
  optional 27 .bool, optional 31 .bool, optional 36 .text, optional 37 .text, optional 39 .text,
  optional 40 .text, optional 41 .text, optional 42 .bool, optional 44 .text, optional 45 .text]

def shape : DescriptorType → List Spec
  | .fileSet => [many 1 .file]
  | .file => [
    optional 1 .text, optional 2 .text, repeated 3 .text, many 4 .message, many 5 .enumeration,
    many 6 .service, many 7 .field, single 8 .fileOptions, single 9 .sourceInfo,
    repeated 10 .int32, repeated 11 .int32, optional 12 .text]
  | .message => [
    optional 1 .text, many 2 .field, many 3 .message, many 4 .enumeration,
    many 5 .extensionRange, many 6 .field, single 7 .messageOptions, many 8 .oneof,
    many 9 .reservedRange, repeated 10 .text]
  | .extensionRange => [optional 1 .int32, optional 2 .int32, single 3 .extensionRangeOptions]
  | .reservedRange | .enumReservedRange => [optional 1 .int32, optional 2 .int32]
  | .extensionRangeOptions | .plainOptions => withUninterpreted []
  | .field => [
    optional 1 .text, optional 2 .text, optional 3 .int32, optional 4 .int32, optional 5 .int32,
    optional 6 .text, optional 7 .text, single 8 .fieldOptions, optional 9 .int32,
    optional 10 .text, optional 17 .bool]
  | .oneof => [optional 1 .text, single 2 .plainOptions]
  | .enumeration => [
    optional 1 .text, many 2 .enumValue, single 3 .enumOptions, many 4 .enumReservedRange,
    repeated 5 .text]
  | .enumValue => [optional 1 .text, optional 2 .int32, single 3 .enumValueOptions]
  | .service => [optional 1 .text, many 2 .method, single 3 .serviceOptions]
  | .method => [
    optional 1 .text, optional 2 .text, optional 3 .text, single 4 .methodOptions,
    optional 5 .bool, optional 6 .bool]
  | .fileOptions => withUninterpreted fileOptionFields
  | .messageOptions => withUninterpreted [
    optional 1 .bool, optional 2 .bool, optional 3 .bool, optional 7 .bool]
  | .fieldOptions => withUninterpreted [
    optional 1 .int32, optional 2 .bool, optional 3 .bool, optional 5 .bool, optional 6 .int32,
    optional 10 .bool]
  | .enumOptions => withUninterpreted [optional 2 .bool, optional 3 .bool]
  | .enumValueOptions => withUninterpreted [optional 1 .bool]
  | .serviceOptions => withUninterpreted [optional 33 .bool]
  | .methodOptions => withUninterpreted [optional 33 .bool, optional 34 .int32]
  | .uninterpreted => [
    many 2 .namePart, optional 3 .text, optional 4 .int64, optional 5 .int64, optional 6 .double,
    optional 7 .bytes, optional 8 .text]
  | .namePart => [required 1 .text, required 2 .bool]
  | .sourceInfo => [many 1 .location]
  | .location => [
    packed 1 .int32, packed 2 .int32, optional 3 .text, optional 4 .text, repeated 6 .text]
  | .pluginRequest => [
    repeated 1 .text, optional 2 .text, single 3 .compilerVersion, many 15 .file]
  | .compilerVersion => [
    optional 1 .int32, optional 2 .int32, optional 3 .int32, optional 4 .text]
  | .pluginResponse => [optional 1 .text, optional 2 .int64, many 15 .responseFile]
  | .responseFile => [optional 1 .text, optional 2 .text, optional 15 .text]

end RpcStubs.Schema
