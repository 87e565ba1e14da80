import StaticSite.Markup.OpeningTag
import StaticSite.Minify.Script

/-!
# Smaller documents

`minifyHtml` reads a document into a tree and writes the tree in fewer characters. Comments go.
White space is treated by what the element around it is for:

* elements that hold other elements (`layout`) lose text that is nothing but white space, and white
  space at their ends;
* elements that hold text (`content`) lose white space at their ends;
* elements inside of text (`inline`) keep a single space where there was white space;
* preformatted elements keep everything.

Attribute values lose their quotes where none are needed, and the attributes that keep them come
first. Every element keeps its closing tag.
-/

namespace StaticSite.Minify

open Text Markup

/-- What an element is for, as far as white space goes. -/
inductive Role where
  /-- holds other elements -/
  | layout
  /-- holds text -/
  | content
  /-- stands inside of text -/
  | inline
  /-- keeps white space -/
  | preformatted
  deriving DecidableEq, Repr

/-- Elements that hold other elements. The document itself is one too. -/
def layoutNames : List String :=
  ["", "article", "aside", "blockquote", "body", "colgroup", "datalist", "dialog", "div", "dl",
   "fieldset", "figure", "footer", "form", "head", "header", "hgroup", "html", "main", "map", "menu",
   "nav", "ol", "optgroup", "picture", "section", "select", "table", "tbody", "tfoot", "thead",
   "tr", "ul"]

/-- Elements that hold text. -/
def contentNames : List String :=
  ["address", "audio", "button", "canvas", "caption", "dd", "details", "dt", "figcaption", "h1",
   "h2", "h3", "h4", "h5", "h6", "iframe", "label", "legend", "li", "meter", "noscript", "object",
   "option", "output", "p", "progress", "slot", "summary", "td", "template", "th", "title", "video"]

/-- Elements that keep white space. -/
def preformattedNames : List String := ["code", "pre", "textarea"]

/-- Elements without content and closing tag. -/
def voidNames : List String :=
  ["area", "base", "br", "col", "embed", "hr", "img", "input", "link", "meta", "param", "source",
   "track", "wbr"]

/-- What an element is for, by its name. -/
def Role.ofName (name : String) : Role :=
  if layoutNames.contains name then .layout
  else if contentNames.contains name then .content
  else if preformattedNames.contains name then .preformatted
  else .inline

/-- A piece of a document. -/
inductive Piece where
  /-- text -/
  | text (value : List Char)
  /-- an element with its attributes and what it holds -/
  | element (name : String) (attributes : List Attribute) (children : List Piece)
  /-- a declaration, without its angle brackets -/
  | declaration (value : List Char)

/-! ## Reading -/

/-- Puts a character in front of pieces, into their text if they start with one. -/
def pushText (s : List Char) : List Piece → List Piece
  | .text t :: pieces => .text (s ++ t) :: pieces
  | pieces => if s = [] then pieces else .text s :: pieces

/-- The text behind a closing tag of a name at the start of a text. -/
def closes? (name : String) (s : List Char) : Option (List Char) :=
  match startsWith? ['<', '/'] s with
  | none => none
  | some t =>
    match cut? ['>'] t with
    | some (inside, rest) => if lower (trim inside) = lower name.toList then some rest else none
    | none => none

/-- The text up to a closing tag of a name, and the text from there on. -/
def rawUntil (name : String) : List Char → List Char × List Char
  | [] => ([], [])
  | c :: s =>
    if (closes? name (c :: s)).isSome then ([], c :: s)
    else
      let (inside, rest) := rawUntil name s
      (c :: inside, rest)

/-- The pieces up to a closing tag, and the text from that tag on; `fuel` bounds the steps. -/
def readPieces : Nat → List Char → List Piece × List Char
  | 0, s => ([], s)
  | _, [] => ([], [])
  | fuel + 1, c :: s =>
    if c ≠ '<' then
      let (pieces, rest) := readPieces fuel s
      (pushText [c] pieces, rest)
    else if (startsWith? "<!--".toList (c :: s)).isSome then
      match cut? "-->".toList (c :: s) with
      | some (_, rest) => readPieces fuel rest
      | none => ([], [])
    else if s.head? = some '/' then ([], c :: s)
    else if s.head? = some '!' ∨ s.head? = some '?' then
      match cut? ['>'] s with
      | some (inside, rest) =>
        let (pieces, rest) := readPieces fuel rest
        (.declaration inside :: pieces, rest)
      | none => ([], [])
    else
      match readOpeningTag (c :: s) with
      | none =>
        let (pieces, rest) := readPieces fuel s
        (pushText [c] pieces, rest)
      | some (tag, rest) =>
        let name := String.ofList (lower tag.name.toList)
        let (children, rest) :=
          if voidNames.contains name then ([], rest)
          else
            let (children, rest) :=
              if name = "script" ∨ name = "style" then
                let (inside, rest) := rawUntil name rest
                ([.text inside], rest)
              else readPieces fuel rest
            (children, (closes? name rest).getD rest)
        let (pieces, rest) := readPieces fuel rest
        (.element name tag.attributes children :: pieces, rest)

/-- All pieces of a document. Closing tags that close nothing are left out. -/
def readDocument (fuel : Nat) (s : List Char) : List Piece :=
  match fuel with
  | 0 => []
  | fuel + 1 =>
    match readPieces (s.length + 1) s with
    | (pieces, []) => pieces
    | (pieces, rest) =>
      match cut? ['>'] rest with
      | some (_, rest) => pieces ++ readDocument fuel rest
      | none => pieces

/-! ## Writing -/

/-- Every run of white space as one space. -/
def collapse : List Char → List Char
  | [] => []
  | c :: s =>
    if isMarkupBlank c then
      match collapse s with
      | ' ' :: t => ' ' :: t
      | t => ' ' :: t
    else c :: collapse s

/-- A value that can stand without quotes. -/
def isPlainValue (s : List Char) : Bool :=
  !s.isEmpty && s.all fun c => !(isMarkupBlank c || c == '\x22' || c == '\x27' || c == '=' ||
    c == '<' || c == '>' || c == '\x60')

/-- An attribute's value, where its name says that white space in it can go. -/
def attributeValue (tag : String) (attributes : List Attribute) (a : Attribute) :
    Option (List Char) :=
  let isViewport := tag == "meta" && a.name == "content" &&
    attributes.any fun b => b.name == "name" && b.value? == some "viewport"
  a.value?.map fun value =>
    if isViewport then value.toList.filter (!isMarkupBlank ·)
    else if a.name == "class" then trim (collapse value.toList)
    else value.toList

/-- An attribute as it is written, and whether it has quotes. -/
def writeAttribute (name : String) (value? : Option (List Char)) : Bool × List Char :=
  match value? with
  | none => (false, name.toList)
  | some value =>
    if value = [] then (false, name.toList)
    else if isPlainValue value then (false, name.toList ++ '=' :: value)
    else
      let quote := if value.contains '\x22' && !value.contains '\x27' then '\x27' else '\x22'
      (true, name.toList ++ '=' :: quote :: value ++ [quote])

/-- The attributes of a tag: those with quotes first, and otherwise by their names. -/
def writeAttributes (tag : String) (attributes : List Attribute) : List Char :=
  let written := attributes.map fun a =>
    (a.name, writeAttribute a.name (attributeValue tag attributes a))
  let sorted := written.mergeSort fun a b => a.1 ≤ b.1
  let (quoted, plain) := sorted.partition (·.2.1)
  (quoted ++ plain).flatMap fun a => ' ' :: a.2.2

/-- Text inside an element. `first` and `last` tell whether it stands at the start and at the end of
what the element holds. -/
def writeText (role : Role) (first last : Bool) (s : List Char) : List Char :=
  if role = .preformatted then s
  else
    let trims := role = .layout ∨ role = .content
    let s := if first ∧ trims then s.dropWhile isMarkupBlank else s
    let s := if last ∧ trims then (s.reverse.dropWhile isMarkupBlank).reverse else s
    if role = .layout ∧ s.all isMarkupBlank then [] else collapse s

/-- A declaration; that of the document type is written in lower case. -/
def writeDeclaration (s : List Char) : List Char :=
  if (lower s).take 8 = "!doctype".toList then '<' :: "!doctype".toList ++ s.drop 8 ++ ['>'] else []

mutual

/-- One piece inside an element. -/
def writePiece (role : Role) (first last : Bool) : Piece → List Char
  | .text s => writeText role first last s
  | .declaration s => writeDeclaration s
  | .element name attributes children =>
    let start := '<' :: name.toList ++ writeAttributes name attributes ++ ['>']
    if voidNames.contains name then start
    else
      let inner := if role = .preformatted then .preformatted else Role.ofName name
      let body :=
        match name, children with
        | "style", [.text s] => minifyCss s
        | "script", [.text s] => minifyScript s
        | _, _ => writePieces inner true children
      start ++ body ++ '<' :: '/' :: name.toList ++ ['>']

/-- Pieces inside an element. -/
def writePieces (role : Role) (first : Bool) : List Piece → List Char
  | [] => []
  | [p] => writePiece role first true p
  | p :: q :: rest => writePiece role first false p ++ writePieces role false (q :: rest)

end

/-- A document in fewer characters. -/
def minifyHtml (s : List Char) : List Char :=
  writePieces .layout true (readDocument (s.length + 1) s)

end StaticSite.Minify
