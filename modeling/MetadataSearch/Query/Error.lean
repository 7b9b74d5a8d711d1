import MetadataSearch.Numeral
import MetadataSearch.Query.Glob

/-!
# Query errors

Why a query text is refused, and where: an offset into the query in bytes.
-/

namespace MetadataSearch.Query

inductive Cause where
  | unexpectedCharacter (c : Char)
  | unterminatedString
  | unknownModifier (c : Char)
  | invalidWildcard (fault : Glob.Fault)
  | invalidNumber (text : String)
  | unterminatedCall
  | missingDate
  | invalidDate (text : String)
  | invalidTimeOffset (text : String)
  | timeOutOfRange
  | unknownTimeFunction (name : String)
  | endOfQuery
  | expectedPrimary
  | expectedComparator
  | expectedValue
  | expectedClose
  | nestedTooDeeply
  | trailingInput
  deriving DecidableEq

def Cause.text : Cause → String
  | .unexpectedCharacter c => "unexpected character '" ++ c.toString ++ "'"
  | .unterminatedString => "unterminated string"
  | .unknownModifier c => "unknown string modifier '" ++ c.toString ++ "'"
  | .invalidWildcard fault => "invalid wildcard pattern: " ++ fault.text
  | .invalidNumber text => "invalid number '" ++ text ++ "'"
  | .unterminatedCall => "unterminated call"
  | .missingDate => "$time.iso needs a date"
  | .invalidDate text => "invalid date '" ++ text ++ "'"
  | .invalidTimeOffset text => "invalid time offset '" ++ text ++ "'"
  | .timeOutOfRange => "time offset out of range"
  | .unknownTimeFunction name => "unknown time function '$" ++ name ++ "'"
  | .endOfQuery => "unexpected end of query"
  | .expectedPrimary => "expected attribute or '('"
  | .expectedComparator => "expected comparison operator"
  | .expectedValue => "expected value"
  | .expectedClose => "expected ')'"
  | .nestedTooDeeply => "query nested too deeply"
  | .trailingInput => "unexpected trailing input"

structure Error where
  cause : Cause
  offset : Nat
  deriving DecidableEq

def Error.message (e : Error) : String :=
  e.cause.text ++ " at offset " ++ String.ofList (Numeral.ofNat e.offset)

end MetadataSearch.Query
