import StaticConfig.Token.Basic
import StaticConfig.Value.Convert

/-!
Why a function call fails.
-/
namespace StaticConfig

inductive CallError where
  | tooFew (least got : Nat)
  | tooMany (most got : Nat)
  | nullArgument
  | conversion (e : ConversionError)
  | required (ty : Ty)
  | notWhole
  | notSequence (ty : Ty)
  | notMapping (ty : Ty)
  | unknownText
  | unknownDocument
  -- collections
  | noLength
  | notJoinable (ty : Ty) (index : Nat)
  | noSuchItem
  | noSuchKey (key : String)
  | mixedArguments
  | allBlank
  | allNull
  | emptyElements
  | negativeElement
  | markedElement
  | rangeArity
  | zeroStep
  | stepDirection
  | rangeTooLong (limit : Nat)
  | negativeStart
  | endBeyondLength
  | startBeyondEnd
  | nullSorted (index : Nat)
  | keyCount (keys values : Nat)
  -- texts
  | nullJoined (index : Nat)
  | badPattern (pattern : String)
  | noMatch
  | badLength
  | formatWidth (limit : Nat)
  | openVerb
  | notWholeVerb
  | unsupportedVerb (verb : Char)
  | missingVerbArgument (verb : Char) (offset need total : Nat)
  | nullVerbArgument (verb : Char) (offset : Nat)
  | extraVerbArgument (index : Nat)
  -- numbers
  | badBase
  | badDigits (text : String) (base : Int)
  -- encodings
  | badBase64 (text : String)
  | notUtf8
  | badJson
  | badYaml
  -- marks
  | notSensitive
  -- variable definitions
  | encodeNull
  | encodeKind
  | badName (name : String)
  | decodeNull
  | badDefinitions (e : SyntaxError)
  | unexpectedBlock (type : String)
  | badDefinition (name summary detail : String)
  | nestedTooDeep
  deriving DecidableEq

namespace CallError

def message : CallError → String
  | tooFew least got =>
    "not enough arguments; at least " ++ toString least ++ " expected, got " ++ toString got
  | tooMany most got =>
    "too many arguments; at most " ++ toString most ++ " expected, got " ++ toString got
  | nullArgument => "argument must not be null"
  | conversion e => e.message
  | required ty => ty.name ++ " required"
  | notWhole => "value must be a whole number"
  | notSequence ty => "list, set or tuple required, got " ++ ty.name
  | notMapping ty => "map or object required, got " ++ ty.name
  | unknownText => "cannot render an unknown value"
  | unknownDocument => "value is not known"
  | noLength => "argument must be a string, a collection type, or a structural type"
  | notJoinable ty index =>
    "all arguments must be lists or tuples; got " ++ ty.name ++ " for argument " ++ toString index
  | noSuchItem => "item not found"
  | noSuchKey key => "lookup failed to find key " ++ Text.inspect key
  | mixedArguments => "all arguments must have the same type"
  | allBlank => "no non-null, non-empty-string arguments"
  | allNull => "no non-null arguments"
  | emptyElements => "cannot use element function with an empty list"
  | negativeElement => "cannot use element function with a negative index"
  | markedElement => "cannot flatten a list containing marked values"
  | rangeArity => "must have one, two, or three arguments"
  | zeroStep => "step must not be zero"
  | stepDirection => "step must be in the direction of the limit"
  | rangeTooLong limit =>
    "more than " ++ toString limit ++ " values were generated; either decrease the difference"
      ++ " between start and end or use a smaller step"
  | negativeStart => "the start index must not be negative"
  | endBeyondLength => "the end index must not be greater than the length of the list"
  | startBeyondEnd => "the start index must not be greater than the end index"
  | nullSorted index =>
    "given list element " ++ toString index ++ " is null; a null string cannot be sorted"
  | keyCount keys values =>
    "number of keys (" ++ toString keys ++ ") does not match number of values ("
      ++ toString values ++ ")"
  | nullJoined index =>
    "element " ++ toString index ++ " of list is null; cannot concatenate null values"
  | badPattern pattern =>
    "invalid regular expression " ++ Text.inspect pattern ++ ": the pattern is malformed"
  | noMatch => "pattern did not match any part of the given string"
  | badLength => "length must be non-negative or -1"
  | formatWidth limit => "width or precision must not exceed " ++ toString limit
  | openVerb => "unterminated format verb at end of string"
  | notWholeVerb => "value must be a whole number for %d"
  | unsupportedVerb verb => "unsupported format verb %" ++ String.singleton verb
  | missingVerbArgument verb offset need total =>
    "not enough arguments for \"%" ++ String.singleton verb ++ "\" at " ++ toString offset
      ++ ": need index " ++ toString need ++ " but have " ++ toString total ++ " total"
  | nullVerbArgument verb offset =>
    "unsupported value for \"%" ++ String.singleton verb ++ "\" at " ++ toString offset
      ++ ": null value cannot be formatted"
  | extraVerbArgument index =>
    "too many arguments; no verbs left for argument " ++ toString index
  | badBase => "base must be a whole number between 2 and 36 inclusive"
  | badDigits text base =>
    "cannot parse " ++ Text.inspect text ++ " as a base " ++ toString base ++ " integer"
  | badBase64 text =>
    "failed to decode base64 data " ++ Text.inspect text ++ ": the data is malformed"
  | notUtf8 => "the result of decoding the provided string is not valid UTF-8"
  | badJson => "invalid JSON: the document is malformed"
  | badYaml => "invalid YAML: the document is malformed"
  | notSensitive => "the given value is not sensitive, so this call is redundant"
  | encodeNull => "cannot encode null value as tfvars"
  | encodeKind => "expected an object or map for tfvars encoding"
  | badName name =>
    "invalid variable name " ++ Text.inspect name ++ ": must be a valid identifier"
  | decodeNull => "cannot decode tfvars from a null value"
  | badDefinitions e => "invalid tfvars syntax: " ++ e.message
  | unexpectedBlock type =>
    "invalid tfvars content: unexpected " ++ Text.inspect type
      ++ " block; only attribute definitions are allowed"
  | badDefinition name summary detail =>
    "invalid expression for variable " ++ Text.inspect name ++ ": " ++ summary ++ ": " ++ detail
  | nestedTooDeep => "variable definitions are nested too deeply"

end CallError

end StaticConfig
