import WebCodex.Foundation.Framing
import WebCodex.Foundation.Layout

/-!
Before text leaves a runner, absolute paths in it are replaced by a mark. The text is read by its
UTF-8 bytes, and what lies between two paths is copied as a slice, a panic when it cuts a
character. So a run of the sanitizer has no result when it cuts a character, and none when its
loop needs more rounds than the text has bytes, each one more (`sanitizeLoop`).
-/

namespace WebCodex.ValidationBridge

open Foundation.Text (Str splitAtByte isControl)
open Foundation.Framing (Bytes utf8Bytes)

def asciiBytes (text : String) : Bytes := text.toList.map Char.toUInt8

variable (b : UInt8)

def isAsciiWhitespace : Bool := (asciiBytes "\t\n\x0c\r ").contains b

def isAsciiAlphabetic : Bool := (65 ≤ b && b ≤ 90) || (97 ≤ b && b ≤ 122)

def isAsciiAlphanumeric : Bool := isAsciiAlphabetic b || (48 ≤ b && b ≤ 57)

def toAsciiLowercase : UInt8 := if 65 ≤ b && b ≤ 90 then b + 32 else b

def eqIgnoreAsciiCase (first second : Bytes) : Bool :=
  first.map toAsciiLowercase == second.map toAsciiLowercase

variable (bytes : Bytes)

/-- The bytes from one index to another, when there are that many. -/
def getRange (start stop : ℕ) : Option Bytes :=
  if start ≤ stop ∧ stop ≤ bytes.length then some ((bytes.drop start).take (stop - start)) else none

/-- The text between two byte offsets. There is none when one lies inside a character. -/
def slice (text : Str) (start stop : ℕ) : Option Str := do
  let (_, rest) ← splitAtByte start text
  let (between, _) ← if start ≤ stop then splitAtByte (stop - start) rest else none
  return between

def isPathStartBoundary : Bool := isAsciiWhitespace b || (asciiBytes "'\"`([\x7b<=,;!").contains b

def isPathStartBoundaryAt (index : ℕ) : Bool :=
  if index == 0 then true
  else bytes[index - 1]?.any fun prev ↦ isPathStartBoundary prev || prev == ':'.toUInt8

def isSchemeByte : Bool := isAsciiAlphanumeric b || (asciiBytes "+-.").contains b

/-- Where the scheme that ends at an index starts. -/
def schemeStart (bytes : Bytes) : ℕ → ℕ
  | 0 => 0
  | index + 1 => if bytes[index]?.any isSchemeByte then schemeStart bytes index else index + 1

def isNonFileUriAuthoritySlashes (index : ℕ) : Bool :=
  if getRange bytes index (index + 2) != some (asciiBytes "//") then false
  else if index == 0 || bytes[index - 1]? != some ':'.toUInt8 then false
  else
    let colon := index - 1
    let start := schemeStart bytes colon
    if colon ≤ start then false
    else if !bytes[start]?.any isAsciiAlphabetic then false
    else !(getRange bytes start colon).any fun scheme ↦ eqIgnoreAsciiCase scheme (asciiBytes "file")

/-- The first bytes of a path on a Windows drive. -/
def isDriveRoot : Bytes → Bool
  | [letter, colon, slash] =>
    isAsciiAlphabetic letter && colon == ':'.toUInt8 &&
      (slash == '/'.toUInt8 || slash == '\\'.toUInt8)
  | _ => false

/-- Whether the sanitizer takes an index for the start of an absolute path. -/
def startsAbsolutePath (index : ℕ) : Bool :=
  let boundary := isPathStartBoundaryAt bytes index
  let fileUri := (getRange bytes index (index + 7)).any
    (fun first ↦ eqIgnoreAsciiCase first (asciiBytes "file://")) && boundary
  let unix := bytes[index]? == some '/'.toUInt8 && bytes[index + 1]? != some '/'.toUInt8 && boundary
  let drive := (getRange bytes index (index + 3)).any isDriveRoot && boundary
  let unc := (getRange bytes index (index + 2)).any
    (fun first ↦ first == asciiBytes "\\\\" || first == asciiBytes "//") && boundary &&
      !isNonFileUriAuthoritySlashes bytes index
  fileUri || unix || drive || unc

def endsPathToken : Bool := isAsciiWhitespace b || (asciiBytes "'\"`)]\x7d>,;|").contains b

/-- The end of a token without the full stops at its end. -/
def withoutTrailingDots (bytes : Bytes) (start : ℕ) : ℕ → ℕ
  | 0 => 0
  | stop + 1 =>
    if start < stop + 1 && bytes[stop]? == some '.'.toUInt8 then withoutTrailingDots bytes
      start stop
    else stop + 1

def absolutePathTokenEnd (start : ℕ) : ℕ := withoutTrailingDots bytes start
    (start + ((bytes.drop start).takeWhile fun b ↦ !endsPathToken b).length)

def pathMark : Str := "<path>".toList

/-- The loop of `sanitize_bridge_text`, with a bound on its rounds. -/
def sanitizeLoop (text : Str) (bytes : Bytes) : ℕ → Str → ℕ → ℕ → Option Str
  | 0, _, _, _ => none
  | rounds + 1, out, copiedUntil, index =>
    if index < bytes.length then
      if startsAbsolutePath bytes index then do
        let stop := absolutePathTokenEnd bytes index
        let copied ← slice text copiedUntil index
        sanitizeLoop text bytes rounds (out ++ copied ++ pathMark) stop stop
      else sanitizeLoop text bytes rounds out copiedUntil (index + 1)
    else do
      let copied ← slice text copiedUntil bytes.length
      return out ++ copied

def sanitizeBridgeText (text : Str) : Option Str :=
  let bytes := utf8Bytes text
  sanitizeLoop text bytes (bytes.length + 1) [] 0 0

def maxErrorMessageChars : ℕ := 240

/-- The characters that an error message keeps. -/
def keptInMessage (c : Char) : Bool := !isControl c || c == '\n' || c == '\t'

def boundErrorMessage (message : Str) : Option Str := do
  let message ← sanitizeBridgeText message
  let out := (message.filter keptInMessage).take maxErrorMessageChars
  return if maxErrorMessageChars < message.length then out ++ ['…'] else out

end WebCodex.ValidationBridge
