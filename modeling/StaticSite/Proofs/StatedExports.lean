import Mathlib.Data.List.Nodup
import Mathlib.Data.Option.Defs
import StaticSite.Proofs.ExportOffsets
import StaticSite.Proofs.Passes
import StaticSite.Proofs.Printing

/-!
# Writing an export

What a component exports can be stated: an object with a field for each part that there is, printed
as JSON behind the words `export default`. A script of this text exports these parts and nothing else
(`parse_stated`). So nothing is lost on the way through the reader of literals and the shapes that the
parts must have.

There is some freedom in the writing. The style sheets stand under either of their keys. The value of
a placeholder is a text, but where this text is that of an integer or of a truth value, it can be
written without quotes. A part that is empty can be left out, and white space and a semicolon may
follow.
-/

namespace StaticSite

open Text Literal

/-! ## Dictionaries of parts -/

namespace Dict

variable {α : Type} {parts : List (String × Option α)} {name : String}

/-- The dictionary of the parts that are there. -/
def ofParts (parts : List (String × Option α)) : Dict α :=
  ofList (parts.filterMap fun part => part.2.map (part.1, ·))

theorem mem_parts {value : α} :
    (name, value) ∈ (parts.filterMap fun part => part.2.map (part.1, ·)) ↔
      (name, some value) ∈ parts := by
  simp only [List.mem_filterMap, Option.map_eq_some_iff, Prod.mk.injEq]
  constructor
  · rintro ⟨⟨n, v?⟩, hmem, v, rfl, rfl, rfl⟩
    exact hmem
  · exact fun hmem => ⟨_, hmem, value, rfl, rfl, rfl⟩

/-- Under the name of a part stands that part, if no other one has its name. -/
theorem get?_ofParts {value? : Option α} (hnames : (parts.map Prod.fst).Nodup)
    (hpart : (name, value?) ∈ parts) : get? name (ofParts parts) = value? := by
  have hone {v? w? : Option α} (hv : (name, v?) ∈ parts) (hw : (name, w?) ∈ parts) : v? = w? :=
    congrArg Prod.snd (List.inj_on_of_nodup_map hnames hv hw rfl)
  ext value
  rw [ofParts, get?_ofList, mem_parts]
  · exact ⟨fun hvalue => hone hpart hvalue, fun hvalue => hvalue ▸ hpart⟩
  · intro v w hv hw
    exact Option.some.inj (hone (mem_parts.1 hv) (mem_parts.1 hw))

theorem get?_ofParts_of_notMem (hname : name ∉ parts.map Prod.fst) :
    get? name (ofParts parts) = none := by
  rw [ofParts, get?_ofList_eq_find?, Option.map_eq_none_iff, List.find?_eq_none]
  rintro ⟨n, value⟩ hentry heq
  have hpart := mem_parts.1 (List.mem_reverse.1 hentry)
  rw [decide_eq_true_eq] at heq
  exact hname (heq ▸ List.mem_map_of_mem (f := Prod.fst) hpart)

theorem ascending_of_names {β : Type} {d : Dict α} {d' : Dict β} (h : Ascending d')
    (hnames : d.map Prod.fst = d'.map Prod.fst) : Ascending d := by
  have hsorted : (d'.map Prod.fst).Pairwise (· < ·) := List.pairwise_map.2 h
  rw [← hnames] at hsorted
  exact List.pairwise_map.1 hsorted

end Dict

theorem plain_ofParts {parts : List (String × Option Data)}
    (h : ∀ part ∈ parts, ∀ d, part.2 = some d → Plain d) : Plain (.object (Dict.ofParts parts)) :=
  .object fun _ hentry => h _ (Dict.mem_parts.1 hentry) _ rfl

theorem plain_of_ascending {fields : Fields} (hnames : Dict.Ascending fields)
    (h : ∀ field ∈ fields, Plain field.2) : Plain (.object fields) := by
  have hself : Dict.ofList fields = fields := Dict.insertAll_of_ascending (d := []) hnames
  rw [← hself]
  exact .object h

namespace Exports

/-! ## Routes -/

/-- How a text is written as the value of a placeholder. -/
inductive ParamWritten : Data → String → Prop where
  /-- as it is -/
  | text {s : String} : ParamWritten (.text s) s
  /-- as the integer that has it for its decimal text -/
  | int {i : Int} (size : i.natAbs ≤ Number.greatestInt) :
      ParamWritten (.number (.int i)) (String.ofList (Number.intText i))
  /-- as the truth value that it names -/
  | bool {b : Bool} : ParamWritten (.bool b) (if b then "true" else "false")

/-- The record of a route, from the parts that are there. -/
def recordOf (params? props? : Option Fields) : Data :=
  .object (Dict.ofParts [("params", params?.map .object), ("props", props?.map .object)])

/-- How the values of placeholders are written as the fields of an object. -/
def ParamsWritten (fields : Fields) (params : Dict String) : Prop :=
  List.Forall₂ (fun field param => field.1 = param.1 ∧ ParamWritten field.2 param.2) fields params

/-- How a route is written as a record. A part that is empty can be left out. -/
inductive RouteWritten : Data → Route → Prop where
  /-- with its values under their names, and with its data -/
  | record {params? props? : Option Fields} {route : Route}
      (params : ParamsWritten (params?.getD []) route.params)
      (names : Dict.Ascending route.params) (props : props?.getD [] = route.props)
      (plain : Plain (.object route.props)) : RouteWritten (recordOf params? props?) route

theorem ParamWritten.plain {d : Data} {s : String} (h : ParamWritten d s) : Plain d := by
  cases h with
  | text => exact .text
  | int size => exact .int size
  | bool => exact .bool

theorem ParamWritten.paramOf_eq {d : Data} {s : String} (h : ParamWritten d s) :
    paramOf d = .ok s := by
  cases h <;> rfl

namespace ParamsWritten

variable {fields : Fields} {params : Dict String}

theorem names_eq (h : ParamsWritten fields params) :
    fields.map Prod.fst = params.map Prod.fst := by
  induction h with
  | nil => rfl
  | cons hone _ ih => rw [List.map_cons, List.map_cons, hone.1, ih]

theorem plain (h : ParamsWritten fields params) (hnames : Dict.Ascending params) :
    Plain (.object fields) := by
  refine plain_of_ascending (Dict.ascending_of_names hnames h.names_eq) fun field hfield => ?_
  obtain ⟨param, -, -, hparam⟩ := exists_of_mem_right h.flip hfield
  exact hparam.plain

theorem paramsOf_eq (h : ParamsWritten fields params) :
    paramsOf (some (.object fields)) = .ok params := by
  refine mapM_of_forall₂ (h.imp ?_)
  rintro ⟨name, d⟩ ⟨name', s⟩ ⟨rfl, hparam⟩
  show (paramOf d >>= fun value => pure (name, value)) = .ok (name, s)
  rw [hparam.paramOf_eq]
  rfl

end ParamsWritten

theorem routePropsOf_map (props? : Option Fields) :
    routePropsOf (props?.map .object) = .ok (props?.getD []) := by
  cases props? <;> rfl

section

variable {d : Data} {route : Route}

theorem RouteWritten.plain (h : RouteWritten d route) : Plain d := by
  cases h with
  | @record params? props? _ params names props plain =>
    refine plain_ofParts ?_
    simp only [List.mem_cons, List.not_mem_nil, or_false]
    rintro part (rfl | rfl) d hd
    · obtain ⟨fields, rfl, rfl⟩ := Option.map_eq_some_iff.1 hd
      exact params.plain names
    · obtain ⟨fields, rfl, rfl⟩ := Option.map_eq_some_iff.1 hd
      obtain rfl : fields = _ := props
      exact plain

/-- **A record reads back as its route.** -/
theorem RouteWritten.routeOf_eq (h : RouteWritten d route) : routeOf d = .ok route := by
  cases h with
  | @record params? props? _ params names props plain =>
    have hparams : paramsOf (params?.map .object) = .ok route.params := by
      rcases params? with _ | fields
      · rw [List.forall₂_nil_left_iff.1 params]
        rfl
      · exact params.paramsOf_eq
    have hprops := routePropsOf_map props?
    rw [props] at hprops
    have hget {name : String} {d? : Option Data}
        (hpart : (name, d?) ∈ [("params", params?.map .object), ("props", props?.map .object)]) :=
      Dict.get?_ofParts (by simp) hpart
    rw [recordOf, routeOf, hget (.head _), hparams, hget (.tail _ (.head _)), hprops]
    rfl

end

/-! ## Exports -/

/-- What a script can state, each part or not. -/
structure Stated where
  /-- a name -/
  name? : Option String
  /-- the paths of style sheets -/
  styles? : Option (List String)
  /-- render data -/
  props? : Option Fields
  /-- routes -/
  routes? : Option (List Route)
  /-- the render data can be printed -/
  plain : ∀ props ∈ props?, Plain (.object props)

namespace Stated

/-- The exports that are stated. -/
def exports (stated : Stated) : Exports :=
  ⟨stated.name?, stated.styles?.getD [], stated.props?.map .fixed, stated.routes?⟩

/-- The parts under their names, with the style sheets under a key for them and the routes in the
records that they are written as. -/
def parts (stated : Stated) (key : String) (records? : Option (List Data)) :
    List (String × Option Data) :=
  [("name", stated.name?.map .text),
    (key, stated.styles?.map fun styles => .list (styles.map .text)),
    ("props", stated.props?.map .object),
    ("paths", records?.map .list)]

/-- The object of the parts that there are. -/
def object (stated : Stated) (key : String) (records? : Option (List Data)) : Data :=
  .object (Dict.ofParts (stated.parts key records?))

variable {stated : Stated} {key : String} {records? : Option (List Data)}

theorem plain_object
    (hrecords : Option.Rel (List.Forall₂ RouteWritten) records? stated.routes?) :
    Plain (stated.object key records?) := by
  refine plain_ofParts ?_
  simp only [parts, List.mem_cons, List.not_mem_nil, or_false]
  rintro part (rfl | rfl | rfl | rfl) d hd
  · obtain ⟨name, -, rfl⟩ := Option.map_eq_some_iff.1 hd
    exact .text
  · obtain ⟨styles, -, rfl⟩ := Option.map_eq_some_iff.1 hd
    refine .list fun d hd => ?_
    obtain ⟨path, -, rfl⟩ := List.mem_map.1 hd
    exact .text
  · obtain ⟨props, hprops, rfl⟩ := Option.map_eq_some_iff.1 hd
    exact stated.plain props hprops
  · obtain ⟨records, rfl, rfl⟩ := Option.map_eq_some_iff.1 hd
    rcases hroutes : stated.routes? with _ | routes
    · rw [hroutes] at hrecords
      cases hrecords
    · rw [hroutes] at hrecords
      cases hrecords with
      | some hrecords =>
        refine .list fun d hd => ?_
        obtain ⟨route, -, hroute⟩ := exists_of_mem_right hrecords.flip hd
        exact hroute.plain

theorem stylesOf_map (styles? : Option (List String)) :
    stylesOf (styles?.map fun styles => .list (styles.map .text)) = .ok (styles?.getD []) := by
  rcases styles? with _ | styles
  · rfl
  · exact mapM_of_forall₂ (List.forall₂_map_left_iff.2 (List.forall₂_same.2 fun path _ => rfl))

theorem routesOf_map {routes? : Option (List Route)}
    (hrecords : Option.Rel (List.Forall₂ RouteWritten) records? routes?) :
    routesOf (records?.map .list) = .ok routes? := by
  cases hrecords with
  | none => rfl
  | @some records routes hrecords =>
    have hmap : records.mapM routeOf = .ok routes :=
      mapM_of_forall₂ (hrecords.imp fun _ _ hroute => hroute.routeOf_eq)
    show (records.mapM routeOf >>= fun routes => pure (some routes)) = .ok (some routes)
    rw [hmap]
    rfl

/-- One of the keys for style sheets is there, and not the other one. -/
theorem get?_sheets (hkey : key = "css" ∨ key = "styles") :
    (Dict.get? "css" (Dict.ofParts (stated.parts key records?))).or
        (Dict.get? "styles" (Dict.ofParts (stated.parts key records?))) =
      stated.styles?.map fun styles => .list (styles.map .text) := by
  have hget : Dict.get? key (Dict.ofParts (stated.parts key records?)) =
      stated.styles?.map fun styles => .list (styles.map .text) := by
    refine Dict.get?_ofParts ?_ (.tail _ (.head _))
    rcases hkey with rfl | rfl <;> simp [parts]
  rcases hkey with rfl | rfl
  · have hother : Dict.get? "styles" (Dict.ofParts (stated.parts "css" records?)) = none :=
      Dict.get?_ofParts_of_notMem (by simp [parts])
    rw [hget, hother, Option.or_none]
  · have hother : Dict.get? "css" (Dict.ofParts (stated.parts "styles" records?)) = none :=
      Dict.get?_ofParts_of_notMem (by simp [parts])
    rw [hget, hother, Option.none_or]

/-- **The shapes give the parts back.** -/
theorem ofFields_eq (hkey : key = "css" ∨ key = "styles")
    (hrecords : Option.Rel (List.Forall₂ RouteWritten) records? stated.routes?) :
    ofFields (Dict.ofParts (stated.parts key records?)) = .ok stated.exports := by
  have hget {name : String} {d? : Option Data} (hpart : (name, d?) ∈ stated.parts key records?) :
      Dict.get? name (Dict.ofParts (stated.parts key records?)) = d? := by
    refine Dict.get?_ofParts ?_ hpart
    rcases hkey with rfl | rfl <;> simp [parts]
  have hname : nameOf (stated.name?.map .text) = .ok stated.name? := by
    cases stated.name? <;> rfl
  have hprops : propsOf (stated.props?.map .object) = .ok (stated.props?.map .fixed) := by
    cases stated.props? <;> rfl
  rw [ofFields, hget (.head _), hname, get?_sheets hkey, stylesOf_map,
    hget (.tail _ (.tail _ (.head _))), hprops,
    hget (.tail _ (.tail _ (.tail _ (.head _)))), routesOf_map hrecords]
  rfl

end Stated

/-- What can stand behind an export: white space, and a semicolon in it or none. -/
def IsEnd (tail : List Char) : Prop :=
  ∃ front back, (∀ c ∈ front ++ back, isBlank c = true) ∧
    (tail = front ++ back ∨ tail = front ++ ';' :: back)

theorem IsEnd.skipEnd_eq {tail : List Char} (h : IsEnd tail) : skipEnd tail = .ok [] := by
  obtain ⟨front, back, hblank, htail⟩ := h
  have hfront : ∀ c ∈ front, isBlank c = true := fun c hc => hblank c (List.mem_append_left _ hc)
  have hback : skipTrivia back = .ok [] := by
    have hskip := skipTrivia_blanks (fun c hc => hblank c (List.mem_append_right _ hc)) []
    rw [List.append_nil] at hskip
    exact hskip.trans Skipped.nil
  obtain rfl | rfl := htail
  · rw [skipEnd, skipTrivia_blanks hfront, hback]
    rfl
  · have hmark : skipTrivia (';' :: back) = .ok (';' :: back) :=
      skipTrivia_of_gap (gap_self (by decide) (by decide)) (by simp)
    rw [skipEnd, skipTrivia_blanks hfront, hmark]
    exact hback

/-- **Writing an export and reading it.** The JSON text of the object of what is stated, behind the
words `export default` and in front of white space with a semicolon or none, exports what is stated:
the name, the style sheets in their order, the render data and the routes in their order. It does so
with the style sheets under either of their keys, and in whatever way the values of placeholders are
written. -/
theorem parse_stated (stated : Stated) {key : String} (hkey : key = "css" ∨ key = "styles")
    {records? : Option (List Data)} {tail : List Char}
    (hrecords : Option.Rel (List.Forall₂ RouteWritten) records? stated.routes?)
    (htail : IsEnd tail) :
    parse (String.ofList
      ("export default ".toList ++ ((stated.object key records?).json ++ tail))) =
        .ok stated.exports := by
  let text := (stated.object key records?).json ++ tail
  have hblank : ∀ c ∈ [' '], isBlank c = true := List.forall_mem_singleton.2 (by decide)
  have hskip : skipTrivia (' ' :: text) = skipTrivia text := skipTrivia_blanks hblank text
  have hgives : Gives (readValue text) (stated.object key records?) tail :=
    givesOne_iff.2 (derives_json (Stated.plain_object hrecords) (.inl trivial))
  have hvalue : value? (' ' :: text) = .ok (stated.object key records?, tail) :=
    value?_eq_ok.2 (readValue_iff.2 (hskip ▸ readValue_iff.1 hgives))
  have hread : readExport (' ' :: text) = .ok (stated.object key records?, []) := by
    rw [readExport, hvalue]
    show (do return (_, ← skipEnd tail)) = _
    rw [htail.skipEnd_eq]
    rfl
  have hat : exportAt? ("export default ".toList ++ text) = some (' ' :: text) := by
    refine exportAt?_iff.2 ⟨[' '], rfl, List.cons_ne_nil _ _, hblank, ?_⟩
    rintro _ ⟨⟩
    decide
  have hfind : findExport? false (String.ofList ("export default ".toList ++ text)).toList =
      some (' ' :: text) := by
    rw [String.toList_ofList]
    exact findExport?_of_exportAt? hat
  rw [parse_of_some hfind, hread]
  exact Stated.ofFields_eq hkey hrecords

/-- Two style sheets, data without fields, and a route that has an integer and a truth value for the
values of its placeholders. -/
def postExports : Stated where
  name? := some "Post \"é\""
  styles? := some ["b.css", "a.css"]
  props? := some []
  routes? := some [⟨[("draft", "true"), ("page", "-42")], []⟩]
  plain := by
    rintro _ ⟨⟩
    exact plain_of_ascending .nil (by simp)

/-- The record of its route, with nothing in quotes and the data left out. -/
def postRecord : Data :=
  recordOf (some [("draft", .bool true), ("page", .number (.int (-42)))]) none

theorem parse_stated_postExports :
    let text := (postExports.object "styles" (some [postRecord])).json
    Option.Rel (List.Forall₂ RouteWritten) (some [postRecord]) postExports.routes? ∧
      IsEnd " ;\n".toList ∧
      parse (String.ofList ("export default ".toList ++ (text ++ " ;\n".toList))) =
        .ok postExports.exports := by
  intro text
  have hpage : ParamWritten (.number (.int (-42))) "-42" := by
    have htext : String.ofList (Number.intText (-42)) = "-42" := by decide +kernel
    exact htext ▸ .int (by decide)
  have hroute : RouteWritten postRecord ⟨[("draft", "true"), ("page", "-42")], []⟩ := by
    refine .record (.cons ⟨rfl, .bool⟩ (.cons ⟨rfl, hpage⟩ .nil)) ?_ rfl ?_
    · unfold Dict.Ascending
      decide
    · exact plain_of_ascending .nil (by simp)
  have hrecords : Option.Rel (List.Forall₂ RouteWritten) (some [postRecord]) postExports.routes? :=
    .some (.cons hroute .nil)
  have htail : IsEnd " ;\n".toList :=
    ⟨[' '], ['\n'], List.all_eq_true.1 (by decide), .inr rfl⟩
  exact ⟨hrecords, htail, parse_stated postExports (.inr rfl) hrecords htail⟩

end Exports

end StaticSite
