import StaticSite.Files.Disk
import StaticSite.Literal.Quoted

/-!
# Requests

A request names a file of the served directory by a URL. Percent escapes are taken back first, then
everything from the first question mark or number sign on is cut off. What is left must be made of
plain names. It names a file, or a directory with an `index.html` in it.
-/

namespace StaticSite.Request

open Text Literal

/-- The bytes that a URL stands for: two hexadecimal digits behind a percent sign are a byte, and
everything else is itself. -/
def decodeBytes : List Char → List UInt8
  | [] => []
  | '%' :: a :: b :: s =>
    match hexValue? a, hexValue? b with
    | some m, some n => UInt8.ofNat (16 * m + n) :: decodeBytes s
    | _, _ => '%'.toUInt8 :: decodeBytes (a :: b :: s)
  | c :: s => (String.singleton c).toUTF8.toList ++ decodeBytes s

/-- The text that a URL stands for, if its bytes are UTF-8. -/
def decode? (url : String) : Option String :=
  String.fromUTF8? ⟨(decodeBytes url.toList).toArray⟩

/-- A text without the slashes at its two ends. -/
def trimSlashes (s : List Char) : List Char :=
  ((s.dropWhile (· = '/')).reverse.dropWhile (· = '/')).reverse

/-- The path that a URL names below the served directory. -/
def path? (url : String) : Option Path :=
  (decode? url).map fun text =>
    ⟨String.ofList (trimSlashes (text.toList.takeWhile fun c => c ≠ '?' ∧ c ≠ '#'))⟩

/-- A part that leads neither up nor elsewhere. -/
def isName : Path.Part → Bool
  | .name _ => true
  | _ => false

/-- The file that a URL names below a directory. -/
def resolve? (d : Disk) (root : Path) (url : String) : Option Path := do
  let path ← path? url
  guard (path.parts.all isName)
  let file := root.join path
  if d.isFile file then return file
  else
    let index := file.child "index.html"
    guard (d.isFile index)
    return index

/-- The media type of a file, by its extension. -/
def contentType (p : Path) : String :=
  match p.extension? with
  | some "html" | some "htm" => "text/html; charset=utf-8"
  | some "css" => "text/css; charset=utf-8"
  | some "js" | some "mjs" => "application/javascript; charset=utf-8"
  | some "json" => "application/json; charset=utf-8"
  | some "xml" => "application/xml; charset=utf-8"
  | some "txt" => "text/plain; charset=utf-8"
  | some "svg" => "image/svg+xml"
  | some "png" => "image/png"
  | some "jpg" | some "jpeg" => "image/jpeg"
  | some "gif" => "image/gif"
  | some "webp" => "image/webp"
  | some "avif" => "image/avif"
  | some "ico" => "image/x-icon"
  | some "woff" => "font/woff"
  | some "woff2" => "font/woff2"
  | some "ttf" => "font/ttf"
  | some "otf" => "font/otf"
  | _ => "application/octet-stream"

/-- The answer to a request. -/
structure Response where
  /-- whether the file was found, as a status code -/
  status : Nat
  /-- the media type -/
  type : String
  /-- the content -/
  body : ByteArray

/-- The answer to a request for a URL. A request for the head alone gets no content. -/
def respond (d : Disk) (root : Path) (method url : String) : Response :=
  let whole : Response :=
    match (resolve? d root url).bind fun p => (d.read? p).map fun content => (p, content) with
    | some (p, content) => ⟨200, contentType p, content⟩
    | none => ⟨404, "text/plain", "404 Not Found".toUTF8⟩
  if method = "HEAD" then { whole with body := ByteArray.empty } else whole

end StaticSite.Request
