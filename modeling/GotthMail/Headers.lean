/-
Header blocks as a mail reader sees them.  A line that starts with a blank
continues the field before it, names are brought into one case, and the blanks
around a value are not part of it.  What is written field by field is read back
field by field.
-/
import GotthMail.MimeText

namespace Headers

open Bytes Wire MimeText

/-- The characters of a field name. -/
def isNameByte (byte : UInt8) : Bool :=
  decide (48 ≤ byte ∧ byte ≤ 57) || decide (65 ≤ byte ∧ byte ≤ 90) ||
    decide (97 ≤ byte ∧ byte ≤ 122) || (ascii "!#$%&'*+-.^_`|~").elem byte

/-- Capitals at the start of a word and small letters inside it. -/
def capitalize : Bool → Text → Text
  | _, [] => []
  | start, byte :: rest =>
    let byte :=
      if start && decide (97 ≤ byte ∧ byte ≤ 122) then byte - 32
      else if !start && decide (65 ≤ byte ∧ byte ≤ 90) then byte + 32
      else byte
    byte :: capitalize (byte == 45) rest

/-- The form in which names are compared; a name with other characters is kept
as it is. -/
def canonicalKey (name : Text) : Text := if name.all isNameByte then capitalize true name else name

def trimBlanks (text : Text) : Text := (text.dropWhile isBlank).rdropWhile isBlank

def startsBlank (line : Text) : Bool := line.head?.any isBlank

/-- Join the lines that continue the current one. -/
def unfoldFrom : Text → List Text → List Text
  | current, [] => [current]
  | current, line :: rest =>
    if startsBlank line then unfoldFrom (current ++ 32 :: trimBlanks line) rest
    else current :: unfoldFrom (trimBlanks line) rest

def unfoldLines : List Text → List Text
  | [] => []
  | line :: rest => unfoldFrom (trimBlanks line) rest

abbrev Header := List (Text × Text)

def readField (line : Text) : Option (Text × Text) :=
  if 58 ∈ line then
    some (canonicalKey (line.takeWhile (· != 58)),
      (line.dropWhile (· != 58)).tail.dropWhile isBlank)
  else none

/-- Fields without a name are skipped. -/
def readFields (lines : List Text) : Option Header :=
  (lines.mapM readField).map fun fields => fields.filter fun field => field.1 != []

/-- The fields before the first empty line. -/
def readHeader (lines : List Text) : Option Header :=
  if (lines.head?.map startsBlank).getD false then none
  else readFields (unfoldLines (lines.takeWhile (· != [])))

def values (header : Header) (name : Text) : List Text :=
  (header.filter fun field => field.1 == canonicalKey name).map Prod.snd

def get (header : Header) (name : Text) : Text := (values header name).head?.getD []

/-- What stands before the first empty line and what follows it. -/
def cutHeader : Text → Option (Text × Text)
  | [] => none
  | byte :: rest =>
    if byte = 13 ∧ rest.take 3 = [10, 13, 10] then some ([], rest.drop 3)
    else (cutHeader rest).map fun cut => (byte :: cut.1, cut.2)

end Headers
