import StaticSite.Markup.TagName
import StaticSite.Text.Span
import StaticSite.Text.Blank

/-!
# Opening tags

An opening tag is `<`, a name, attributes and `>` or `/>`. An attribute is a name, and then perhaps
`=` and a value in double quotes, single quotes or none; a value without quotes runs up to white
space or `>`. A text that is not of this form, because it is a closing tag, a comment or simply
never ends, has no opening tag.
-/

namespace StaticSite.Markup

open Text

/-- An attribute; one without `=` has no value. -/
structure Attribute where
  /-- the name, as it is spelled -/
  name : String
  /-- the value without its quotes -/
  value? : Option String
  deriving DecidableEq, Repr

/-- An opening tag. -/
structure OpeningTag where
  /-- the name, as it is spelled -/
  name : String
  /-- the attributes in the order of the text -/
  attributes : List Attribute
  /-- whether the tag ends in `/>` and so closes itself -/
  selfClosing : Bool
  deriving DecidableEq, Repr

/-- A character of a tag's full name, behind the first one. -/
def isTagChar (c : Char) : Bool := isNameChar c || c == '-' || c == ':' || c == '.'

/-- A character of an attribute's name. -/
def isAttributeChar (c : Char) : Bool :=
  !(isMarkupBlank c || c == '=' || c == '>' || c == '/' || c == '\x22' || c == '\x27')

/-- A character of a value without quotes. -/
def isBareChar (c : Char) : Bool := !(isMarkupBlank c || c == '>')

/-- The value behind an equals sign, and what follows it. -/
def readAttributeValue (s : List Char) : Option (List Char × List Char) :=
  match s.dropWhile isMarkupBlank with
  | [] => none
  | c :: t =>
    if c = '\x22' ∨ c = '\x27' then cut? [c] t
    else some ((c :: t).takeWhile isBareChar, (c :: t).dropWhile isBareChar)

/-- The attribute at the start of a text, and what follows it. -/
def readAttribute (s : List Char) : Option (Attribute × List Char) :=
  match s.takeWhile isAttributeChar with
  | [] => none
  | name =>
    let rest := s.dropWhile isAttributeChar
    match rest.dropWhile isMarkupBlank with
    | '=' :: t =>
      (readAttributeValue t).map fun (value, r) =>
        (⟨String.ofList name, some (String.ofList value)⟩, r)
    | _ => some (⟨String.ofList name, none⟩, rest)

theorem length_of_readAttributeValue {s value r : List Char}
    (h : readAttributeValue s = some (value, r)) : r.length ≤ s.length := by
  rw [readAttributeValue] at h
  have hs := (List.dropWhile_suffix (l := s) isMarkupBlank).length_le
  split at h
  · simp at h
  · next c t ht =>
    rw [ht] at hs
    split at h
    · have := length_of_cut? h
      simp only [List.length_cons] at hs
      omega
    · cases h
      exact Nat.le_trans (List.dropWhile_suffix _).length_le hs

theorem length_of_readAttribute {s r : List Char} {a : Attribute}
    (h : readAttribute s = some (a, r)) : r.length < s.length := by
  have hs := congrArg List.length (List.takeWhile_append_dropWhile (p := isAttributeChar) (l := s))
  rw [List.length_append] at hs
  rw [readAttribute] at h
  split at h
  · simp at h
  · next hn =>
    have hpos := List.length_pos_iff.2 hn
    dsimp only at h
    split at h
    · next t ht =>
      obtain ⟨⟨value, r'⟩, hv, he⟩ := Option.map_eq_some_iff.1 h
      cases he
      have h₁ := length_of_readAttributeValue hv
      dsimp only
      have h₂ := (List.dropWhile_suffix (l := s.dropWhile isAttributeChar) isMarkupBlank).length_le
      rw [ht, List.length_cons] at h₂
      omega
    · cases h
      omega

/-- The attributes up to the end of the tag, whether it closes itself, and what follows. -/
def readAttributes (s : List Char) : Option (List Attribute × Bool × List Char) :=
  match _hs : s.dropWhile isMarkupBlank with
  | [] => none
  | '>' :: r => some ([], false, r)
  | '/' :: '>' :: r => some ([], true, r)
  | t =>
    match _ha : readAttribute t with
    | none => none
    | some (a, r) =>
      match readAttributes r with
      | none => none
      | some (more, selfClosing, rest) => some (a :: more, selfClosing, rest)
termination_by s.length
decreasing_by
  have h₁ := (List.dropWhile_suffix (l := s) isMarkupBlank).length_le
  have h₂ := length_of_readAttribute _ha
  rw [_hs] at h₁
  omega

/-- The opening tag at the start of a text, and what follows it. -/
def readOpeningTag : List Char → Option (OpeningTag × List Char)
  | '<' :: c :: s =>
    if isNameChar c then
      match readAttributes (s.dropWhile isTagChar) with
      | some (attributes, selfClosing, rest) =>
        some (⟨String.ofList (c :: s.takeWhile isTagChar), attributes, selfClosing⟩, rest)
      | none => none
    else none
  | _ => none

/-- The opening tag at a byte offset, with the offset behind it. -/
def openingTagAt (markup : String) (start : Nat) : Option (OpeningTag × Nat) :=
  let whole := markup.toList
  (dropBytes? start whole).bind fun s =>
    (readOpeningTag s).map fun (tag, rest) => (tag, byteLength whole - byteLength rest)

/-! ## What is left is shorter -/

theorem length_of_readAttributes {s r : List Char} {attributes : List Attribute}
    {selfClosing : Bool} (h : readAttributes s = some (attributes, selfClosing, r)) :
    r.length < s.length := by
  fun_induction readAttributes s generalizing attributes with
  | case1 => simp at h
  | case2 s t ht =>
    cases h
    have := (List.dropWhile_suffix (l := s) isMarkupBlank).length_le
    rw [ht, List.length_cons] at this
    omega
  | case3 s t ht =>
    cases h
    have := (List.dropWhile_suffix (l := s) isMarkupBlank).length_le
    rw [ht, List.length_cons] at this
    simp only [List.length_cons] at this
    omega
  | case4 => simp at h
  | case5 => simp at h
  | case6 s a t more closing rest hr _ _ _ ha ih =>
    cases h
    have h₁ := (List.dropWhile_suffix (l := s) isMarkupBlank).length_le
    have h₂ := length_of_readAttribute ha
    have h₃ := ih hr
    omega

theorem length_of_readOpeningTag {s r : List Char} {tag : OpeningTag}
    (h : readOpeningTag s = some (tag, r)) : r.length < s.length := by
  unfold readOpeningTag at h
  split at h
  · next c t =>
    split at h
    · split at h
      · next ha =>
        cases h
        have h₁ := length_of_readAttributes ha
        have h₂ := (List.dropWhile_suffix (l := t) isTagChar).length_le
        simp only [List.length_cons]
        omega
      · simp at h
    · simp at h
  · simp at h

end StaticSite.Markup
