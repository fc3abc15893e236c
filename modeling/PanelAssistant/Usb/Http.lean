import PanelAssistant.Library.Cut
import PanelAssistant.Library.JsonTree
import PanelAssistant.Library.Text
import PanelAssistant.Library.Utf8

/-!
# The HTTP reader over ADB

`readBounded` of `bounded-stream.mjs` and `parseHttp` of `usb-health.mjs`. The first decodes a whole
response as UTF-8; the second takes the text apart, and encodes it again to find the edges of
chunks. -/

namespace PanelAssistant.Http

open Library Library.Text Library.Cut

/-! ## Reading -/

inductive ReadError where
  /-- `Error('malformed')` -/
  | malformed
  /-- The `TypeError` of a fatal decoder. -/
  | notUtf8
  deriving DecidableEq

/-- The loop of `readBounded` over what the reader yields. -/
def readParts (maximum bytes : ℕ) (decoder : Utf8.State) (text : List Char) :
    List (List UInt8) → Except ReadError (List Char)
  | [] => if decoder.needed = 0 then .ok text else .error .notUtf8
  | value :: values =>
    if maximum < bytes + value.length then .error .malformed
    else
      match Utf8.decode decoder value with
      | some (decoder, part) =>
        readParts maximum (bytes + value.length) decoder (text ++ part) values
      | none => .error .notUtf8

/-- `readBounded` -/
def readBounded (values : List (List UInt8)) (maximum : ℕ) : Except ReadError (List Char) :=
  if maximum < 1 ∨ 32768 < maximum then .error .malformed
  else readParts maximum 0 .start [] values

/-! ## Lines -/

/-- `[\x20-\x7e]` -/
def isPrintable (c : Char) : Bool := 0x20 ≤ c.toNat && c.toNat ≤ 0x7E

/-- `[\x20-\x7e\t]` -/
def isFieldChar (c : Char) : Bool := isPrintable c || c == '\t'

/-- The characters of a header name. -/
def isTokenChar (c : Char) : Bool :=
  isAlnum c || "!#$%&'*+.^_`|~-".toList.contains c

/-- `(?: [\x20-\x7e]*)?$` -/
def isReason : List Char → Bool
  | [] => true
  | c :: rest => c == ' ' && rest.all isPrintable

/-- The status of `/^HTTP\/1\.[01] ([0-9]{3})(?: [\x20-\x7e]*)?$/` -/
def statusCode? : List Char → Option ℕ
  | 'H' :: 'T' :: 'T' :: 'P' :: '/' :: '1' :: '.' :: minor :: ' ' :: a :: b :: c :: reason =>
    if (minor = '0' ∨ minor = '1') ∧ [a, b, c].all isDigit ∧
      isReason reason then some (decimal [a, b, c])
    else none
  | _ => none

/-- `toLowerCase`, of an ASCII text. -/
def lowerCase (text : List Char) : List Char :=
  text.map fun c => if isUpper c then Char.ofNat (c.toNat + 32) else c

def isBlank (c : Char) : Bool := c == ' ' || c == '\t'

/-- `trim`, where the only white space is blanks. -/
def trim (text : List Char) : List Char :=
  ((text.dropWhile isBlank).reverse.dropWhile isBlank).reverse

/-- The name and the value of a header line. -/
def header? (line : List Char) : Option (List Char × List Char) :=
  let name := line.takeWhile isTokenChar
  match line.drop name.length with
  | ':' :: value =>
    if name ≠ [] ∧ value.all isFieldChar then some (lowerCase name, trim value) else none
  | _ => none

/-! ## Parsing -/

inductive HttpError where
  /-- `UsbHealthError('health_malformed')` -/
  | healthMalformed
  /-- The `RangeError` of a set beyond the end of an array. -/
  | range
  /-- The loop has not ended. -/
  | running
  deriving DecidableEq

abbrev Headers := List (List Char × List Char)

/-- `headers.get(name)` -/
def Headers.get? (headers : Headers) (name : List Char) : Option (List Char) :=
  (headers.find? fun header => header.1 == name).map Prod.snd

def readHeaders (headers : Headers) : List (List Char) → Except HttpError Headers
  | [] => .ok headers
  | line :: lines =>
    match header? line with
    | none => .error .healthMalformed
    | some header =>
      if 2048 < line.length ∨ (headers.get? header.1).isSome then .error .healthMalformed
      else readHeaders (headers ++ [header]) lines

/-- `new TextDecoder().decode(bytes)`, which drops a byte order mark. -/
def decodeMarked (bytes : List UInt8) : List Char :=
  match Utf8.lossy .start bytes with
  | '\uFEFF' :: text => text
  | text => text

def isHexDigit (c : Char) : Bool := (JsonTree.hexValue? c).isSome

/-- `Number.parseInt(text, 16)`, of hexadecimal digits. -/
def parseHex (text : List Char) : ℕ :=
  text.foldl (fun n c => 16 * n + (JsonTree.hexValue? c).getD 0) 0

/-- The loop over chunks: the chunks and the sum of their sizes. -/
def readChunks (maximumBody : ℕ) : ℕ → List UInt8 → List (List UInt8) → ℕ →
    Except HttpError (List (List UInt8) × ℕ)
  | 0, _, _, _ => .error .running
  | fuel + 1, bytes, chunks, total =>
    match cut [13, 10] bytes with
    | none => .error .healthMalformed
    | some (line, bytes) =>
      let sizeText := decodeMarked line
      if line.length < 1 ∨ 8 < line.length ∨ ¬ (sizeText ≠ [] ∧ sizeText.all isHexDigit) ∨
          maximumBody < chunks.length then .error .healthMalformed
      else
        let size := parseHex sizeText
        if size = 0 then if bytes = [13, 10] then .ok (chunks, total) else .error .healthMalformed
        else if maximumBody < size ∨ maximumBody < total + size ∨ bytes.length < size + 2 ∨
            bytes[size]? ≠ some 13 ∨ bytes[size + 1]? ≠ some 10 then .error .healthMalformed
        else readChunks maximumBody fuel (bytes.drop (size + 2))
          (chunks ++ [bytes.take size]) (total + size)

/-- The chunks set one behind the other in an array of `total` bytes. -/
def assemble (chunks : List (List UInt8)) (total : ℕ) : Except HttpError (List UInt8) :=
  if total < chunks.flatten.length then .error .range
  else .ok (chunks.flatten ++ List.replicate (total - chunks.flatten.length) 0)

/-- A chunked body. -/
def readChunked (body : List Char) (maximumBody : ℕ) : Except HttpError (List Char) := do
  let bytes := Utf8.encode body
  let (chunks, total) ← readChunks maximumBody (bytes.length + 1) bytes [] 0
  let decoded ← assemble chunks total
  match Utf8.decodeAll decoded with
  | some body => .ok body
  | none => .error .healthMalformed

/-- `/^(0|[1-9][0-9]{0,4})$/` -/
def isLength (text : List Char) : Bool := isNumeral text && text.length ≤ 5

def contentEncoding : List Char := "content-encoding".toList

def contentLength : List Char := "content-length".toList

def transferEncoding : List Char := "transfer-encoding".toList

def identity : List Char := "identity".toList

def chunked : List Char := "chunked".toList

/-- `\r\n\r\n` -/
def blankLine : List Char := ['\r', '\n', '\r', '\n']

/-- The body as the headers frame it. -/
def readBody (headers : Headers) (body : List Char) (maximumBody : ℕ) :
    Except HttpError (List Char) :=
  match headers.get? transferEncoding, headers.get? contentLength with
  | some transfer, none =>
    if lowerCase transfer = chunked then readChunked body maximumBody else .error .healthMalformed
  | some _, some _ => .error .healthMalformed
  | none, some length =>
    if isLength length ∧ decimal length ≤ maximumBody ∧
      decimal length = (Utf8.encode body).length then .ok body
    else .error .healthMalformed
  | none, none => .ok body

/-- `parseHttp` -/
def parseHttp (text : List Char) (maximumBody : ℕ) (acceptedStatuses : List ℕ) :
    Except HttpError (List Char) := do
  match cut blankLine text with
  | none => .error .healthMalformed
  | some (head, body) =>
    if 8192 < head.length then .error .healthMalformed
    else
      match splitPair '\r' '\n' head with
      | [] => .error .healthMalformed
      | status :: lines =>
        if ¬ (status :: lines).all (·.all isFieldChar) then .error .healthMalformed
        else
          match statusCode? status with
          | none => .error .healthMalformed
          | some code =>
            if code ∉ acceptedStatuses ∨ 64 < lines.length then .error .healthMalformed
            else do
              let headers ← readHeaders [] lines
              if (headers.get? contentEncoding).any fun value => lowerCase value ≠ identity then
                .error .healthMalformed
              else do
                let body ← readBody headers body maximumBody
                if maximumBody < (Utf8.encode body).length then .error .healthMalformed
                else .ok body

/-- The reading and the parsing of `readUsbApp`, which maps what the reader throws. -/
def receive (values : List (List UInt8)) (maximumBody : ℕ) (acceptedStatuses : List ℕ) :
    Except HttpError (List Char) :=
  match readBounded values 32768 with
  | .ok text => parseHttp text maximumBody acceptedStatuses
  | .error _ => .error .healthMalformed

end PanelAssistant.Http
