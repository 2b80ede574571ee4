import Oxicast.Decimal

/-!
# Oxicast.Serve

The file server: the `Range` parser and the handler of `/file/{id}`.

The disk is a parameter of the handler: what opening a path gives, and whether
the metadata of the open file can be read and its position set.  A request is
its id and its first `Range` header; the other headers are never looked at.
-/

namespace Oxicast

/-! ## the range parser -/

/-- `a.saturating_sub(b)`. -/
def saturatingSub (a b : UInt64) : UInt64 := if b ≤ a then a - b else 0

/-- `text.splitn(2, sep)`: cut at the first separator, if there is one. -/
def splitn2 (sep : Char) (text : List Char) : List (List Char) :=
  match text.dropWhile (· ≠ sep) with
  | [] => [text]
  | _ :: rest => [text.takeWhile (· ≠ sep), rest]

/-- `parse_range`: the first and the last position of a range of a file. -/
def parseRange (header : String) (fileSize : UInt64) : Option (UInt64 × UInt64) :=
  if fileSize = 0 then none
  else
    (header.toList.dropPrefix? "bytes=".toList).bind fun s =>
      match splitn2 '-' s with
      | [first, last] =>
          if first.isEmpty then
            -- `bytes=-500`: the last 500 bytes
            (parseU64 last).bind fun suffix =>
              let start := saturatingSub fileSize suffix
              let stop := fileSize - 1
              if start ≤ stop then some (start, stop) else none
          else
            (parseU64 first).bind fun start =>
              (if last.isEmpty then some (fileSize - 1) else parseU64 last).bind fun stop =>
                if start ≤ stop ∧ stop < fileSize then some (start, stop) else none
      | _ => none

/-! ## header values -/

/-- The bytes of a request header. -/
abbrev HeaderValue := List UInt8

/-- `HeaderValue::to_str`: visible ASCII and tabs only. -/
def HeaderValue.toStr (value : HeaderValue) : Option String :=
  if value.all fun b => 32 ≤ b ∧ b < 127 ∨ b = 9 then
    some (String.ofList (value.map fun b => Char.ofNat b.toNat))
  else none

/-- `text.parse::<HeaderValue>()` succeeds: no control characters but tabs. -/
def isHeaderText (text : String) : Bool :=
  text.toList.all fun c => ' ' ≤ c ∧ c ≠ '\x7f' ∨ c = '\t'

/-! ## responses -/

inductive StatusCode where
  | ok
  | partialContent
  | notFound
  | rangeNotSatisfiable
  | internalServerError
  deriving DecidableEq

inductive HeaderName where
  | contentType
  | contentLength
  | contentRange
  | acceptRanges
  | accessControlAllowOrigin
  deriving DecidableEq

inductive Body where
  | text (message : String)
  | bytes (data : List UInt8)
  deriving DecidableEq

structure Response where
  status : StatusCode
  headers : List (HeaderName × String)
  body : Body
  deriving DecidableEq

/-- A header whose text is parsed first; without a value it is left out. -/
def parsedHeader (name : HeaderName) (text : String) : List (HeaderName × String) :=
  if isHeaderText text then [(name, text)] else []

/-- A status with a message: the response of a failed request. -/
def errorResponse (status : StatusCode) (message : String) : Response where
  status
  headers := [(.contentType, "text/plain; charset=utf-8")]
  body := .text message

/-! ## the handler -/

/-- A registered file. -/
structure FileEntry where
  path : String
  contentType : String

/-- A file that has been opened.  Its length is a `u64`. -/
structure OpenFile where
  contents : List UInt8
  metadata : Except String Unit
  seek : Except String Unit
  fits : contents.length < 2 ^ 64

namespace OpenFile

/-- `metadata.len()`. -/
def size (file : OpenFile) : UInt64 := UInt64.ofNat file.contents.length

theorem toNat_size (file : OpenFile) : file.size.toNat = file.contents.length :=
  UInt64.toNat_ofNat_of_lt' file.fits

/-- The bytes from `start` on, `len` at most. -/
def window (file : OpenFile) (start len : UInt64) : List UInt8 :=
  (file.contents.drop start.toNat).take len.toNat

/-- The content type that is sent. -/
def contentType (text : String) : String :=
  if isHeaderText text then text else "application/octet-stream"

/-- The headers a file is sent with, whole or in part. -/
def commonHeaders : List (HeaderName × String) :=
  [(.acceptRanges, "bytes"), (.accessControlAllowOrigin, "*")]

/-- `serve_file`, once the file is open and its size known. -/
def serve (file : OpenFile) (mime : String) (rangeHeader : Option HeaderValue) : Response :=
  let fileSize := file.size
  let range := (rangeHeader.bind HeaderValue.toStr).bind (parseRange · fileSize)
  if rangeHeader.isSome ∧ range = none then
    { status := .rangeNotSatisfiable
      headers := parsedHeader .contentRange s!"bytes */{fileSize}"
      body := .bytes [] }
  else
    match range with
    | some (start, stop) =>
        match file.seek with
        | .error _ => errorResponse .internalServerError "seek failed"
        | .ok () =>
            let len := stop - start + 1
            { status := .partialContent
              headers := [(.contentType, contentType mime)] ++
                parsedHeader .contentLength (toString len) ++
                parsedHeader .contentRange s!"bytes {start}-{stop}/{fileSize}" ++ commonHeaders
              body := .bytes (file.window start len) }
    | none =>
        { status := .ok
          headers := [(.contentType, contentType mime)] ++
            parsedHeader .contentLength (toString fileSize) ++ commonHeaders
          body := .bytes file.contents }

end OpenFile

/-- `serve_file`: the handler of `/file/{id}`.  The registry is `none` when its
lock is poisoned. -/
def serveFile (disk : String → Except String OpenFile) (files : Option (String → Option FileEntry))
    (id : String) (rangeHeader : Option HeaderValue) : Response :=
  match files with
  | none => errorResponse .internalServerError "lock poisoned"
  | some files =>
      match files id with
      | none => errorResponse .notFound "file not found"
      | some entry =>
          match disk entry.path with
          | .error e => errorResponse .internalServerError s!"open: {e}"
          | .ok file =>
              match file.metadata with
              | .error e => errorResponse .internalServerError s!"metadata: {e}"
              | .ok () => file.serve entry.contentType rangeHeader

end Oxicast
