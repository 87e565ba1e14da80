import StaticSite.Component.Loader
import StaticSite.Proofs.Acceptance

/-!
# Names in order

The reader of literals leaves each name once in an object, and all of them in order. So the data that
a component file states is in order, that of its routes too, however deep it lies (`inOrder_of_load`).
What is laid over other data then wins name by name (`get?_insertAll_of_ascending`).
-/

namespace StaticSite

/-! ## Objects -/

namespace Dict

variable {α : Type}

theorem mem_of_get? {name : String} {value : α} {d : Dict α} (h : get? name d = some value) :
    (name, value) ∈ d := by
  induction d with
  | nil => cases h
  | cons entry d ih =>
    rw [get?] at h
    split at h
    · next heq =>
      rw [← heq, ← Option.some.inj h]
      exact List.mem_cons_self
    · exact List.mem_cons_of_mem _ (ih h)

/-- What is put on top wins, name by name. -/
theorem get?_insertAll_of_ascending {entries : Dict α} (h : Ascending entries) (name : String)
    (d : Dict α) : get? name (insertAll d entries) = (get? name entries).or (get? name d) := by
  have hself : ofList entries = entries := insertAll_of_ascending (d := []) h
  rw [get?_insertAll, ← get?_ofList_eq_find?, hself]

end Dict

namespace Data

/-- Data in which each object has its names in order. -/
inductive InOrder : Data → Prop where
  /-- no value -/
  | null : InOrder .null
  /-- a truth value -/
  | bool {b : Bool} : InOrder (.bool b)
  /-- a number -/
  | number {n : Number} : InOrder (.number n)
  /-- a text -/
  | text {s : String} : InOrder (.text s)
  /-- a list of such data -/
  | list {items : List Data} (inside : ∀ v ∈ items, InOrder v) : InOrder (.list items)
  /-- an object of such data with its names in order -/
  | object {fields : Fields} (names : Dict.Ascending fields)
      (inside : ∀ entry ∈ fields, InOrder entry.2) : InOrder (.object fields)

theorem InOrder.names {fields : Fields} (h : InOrder (.object fields)) : Dict.Ascending fields := by
  cases h with
  | object names _ => exact names

theorem InOrder.get? {fields : Fields} (h : InOrder (.object fields)) {name : String} {v : Data}
    (hv : Dict.get? name fields = some v) : InOrder v := by
  cases h with
  | object _ inside => exact inside _ (Dict.mem_of_get? hv)

end Data

namespace Literal

/-- Elements that denote data in order. -/
def Element.InOrder : (e : Element) → e.Meaning → Prop
  | .value, v => Data.InOrder v
  | .member, m => Data.InOrder (Prod.snd m)

/-- Symbols that denote data in order. -/
def Symbol.InOrder : (x : Symbol) → x.Meaning → Prop
  | .one e, m => e.InOrder m
  | .more e, (ms : List e.Meaning) => ∀ m ∈ ms, e.InOrder m
  | .listing e, (ms : List e.Meaning) => ∀ m ∈ ms, e.InOrder m

theorem Scalar.inOrder {s rest : List Char} {v : Data} (h : Scalar s v rest) : v.InOrder := by
  cases h with
  | text quoted => exact .text
  | number numeral => exact .number
  | bool word => exact .bool
  | null word => exact .null
  | undefined word => exact .null

/-- What the grammar denotes is in order. -/
theorem Derives.inOrder {x : Symbol} {s rest : List Char} {m : x.Meaning}
    (h : Derives x s m rest) : x.InOrder m := by
  induction h with
  | scalar _ token => exact token.inOrder
  | list _ _ _ ih => exact Data.InOrder.list ih
  | object _ _ _ ih =>
    refine Data.InOrder.object (Dict.ascending_insertAll List.Pairwise.nil _) fun entry hentry => ?_
    exact ih entry (Dict.mem_of_mem_ofList hentry)
  | member _ _ _ _ ih => exact ih
  | empty => exact fun m hm => nomatch hm
  | some _ _ _ ihfirst ihothers =>
    intro m hm
    cases hm with
    | head => exact ihfirst
    | tail _ hm => exact ihothers m hm
  | last => exact fun m hm => nomatch hm
  | next _ _ _ ihone ihothers =>
    intro m hm
    cases hm with
    | head => exact ihone
    | tail _ hm => exact ihothers m hm

theorem inOrder_of_value? {s rest : List Char} {v : Data} (h : value? s = .ok (v, rest)) :
    v.InOrder :=
  (givesOne_iff (e := .value).1 (value?_eq_ok.1 h)).inOrder

end Literal

/-! ## Exports that were read -/

namespace Exports

/-- The fields that a component states. -/
def stated (exports : Exports) : Fields :=
  match exports.props? with
  | some (.fixed own) => own
  | _ => []

/-- Exports whose data is stated and in order, and that of the routes too. -/
structure InOrder (exports : Exports) : Prop where
  /-- there is no data, or it is stated -/
  props : exports.props? = none ∨ exports.props? = some (.fixed exports.stated)
  /-- it is in order -/
  own : Dict.Ascending exports.stated
  /-- so is the data of each route -/
  routes : ∀ routes, exports.routes? = some routes → ∀ route ∈ routes, Dict.Ascending route.props

theorem ascending_of_routePropsOf {v? : Option Data} {props : Fields}
    (hv : ∀ v, v? = some v → v.InOrder) (h : routePropsOf v? = .ok props) :
    Dict.Ascending props := by
  unfold routePropsOf at h
  split at h
  · cases h
    exact List.Pairwise.nil
  · cases h
    exact List.Pairwise.nil
  · cases h
    exact (hv _ rfl).names
  · cases h

theorem ascending_of_routeOf {v : Data} {route : Route} (hv : v.InOrder)
    (h : routeOf v = .ok route) : Dict.Ascending route.props := by
  unfold routeOf at h
  split at h
  · obtain ⟨params, -, h⟩ := bind_eq_ok h
    obtain ⟨props, hprops, h⟩ := bind_eq_ok h
    cases h
    exact ascending_of_routePropsOf (fun _ hfield => hv.get? hfield) hprops
  · cases h

theorem ascending_of_routesOf {v? : Option Data} {routes : List Route}
    (hv : ∀ v, v? = some v → v.InOrder) (h : routesOf v? = .ok (some routes)) :
    ∀ route ∈ routes, Dict.Ascending route.props := by
  unfold routesOf at h
  split at h
  · cases h
  · cases h
  · next records =>
    obtain ⟨read, hread, h⟩ := bind_eq_ok h
    cases h
    intro route hroute
    obtain ⟨record, hrecord, hroute⟩ := exists_of_mem_right (mapM_eq_ok hread) hroute
    cases hv _ rfl with
    | list inside => exact ascending_of_routeOf (inside record hrecord) hroute
  · cases h

theorem props_of_propsOf {v? : Option Data} {props? : Option PropSource}
    (hv : ∀ v, v? = some v → v.InOrder) (h : propsOf v? = .ok props?) :
    props? = none ∨ ∃ own, props? = some (.fixed own) ∧ Dict.Ascending own := by
  unfold propsOf at h
  split at h
  · cases h
    exact .inl rfl
  · cases h
    exact .inl rfl
  · cases h
    exact .inr ⟨_, rfl, (hv _ rfl).names⟩
  · cases h

theorem inOrder_of_ofFields {fields : Fields} {exports : Exports}
    (hfields : Data.InOrder (.object fields)) (h : ofFields fields = .ok exports) :
    exports.InOrder := by
  rw [ofFields] at h
  obtain ⟨name?, -, h⟩ := bind_eq_ok h
  obtain ⟨styles, -, h⟩ := bind_eq_ok h
  obtain ⟨props?, hprops, h⟩ := bind_eq_ok h
  obtain ⟨routes?, hroutes, h⟩ := bind_eq_ok h
  cases h
  have hlisted : ∀ routes, routes? = some routes → ∀ route ∈ routes,
      Dict.Ascending route.props := by
    rintro routes rfl
    exact ascending_of_routesOf (fun _ hfield => hfields.get? hfield) hroutes
  obtain rfl | ⟨own, rfl, hown⟩ := props_of_propsOf (fun _ hfield => hfields.get? hfield) hprops
  · exact ⟨.inl rfl, List.Pairwise.nil, hlisted⟩
  · exact ⟨.inr rfl, hown, hlisted⟩

/-- **What a script exports is in order**, and its data is stated. -/
theorem inOrder_of_parse {script : String} {exports : Exports} (h : parse script = .ok exports) :
    exports.InOrder := by
  rw [parse] at h
  split at h
  · cases h
    exact ⟨.inl rfl, List.Pairwise.nil, nofun⟩
  · split at h
    · cases h
    · split at h
      · cases h
      · next hread =>
        obtain ⟨⟨value, rest⟩, hvalue, hread⟩ := bind_eq_ok hread
        obtain ⟨_, -, hread⟩ := bind_eq_ok hread
        cases hread
        split at h
        · exact inOrder_of_ofFields (Literal.inOrder_of_value? hvalue) h
        · cases h
      · cases h

end Exports

theorem Component.inOrder_of_load {I : Type} {d : Disk} {source : Path} {page : Component I}
    (h : load d source = .ok page) : page.exports.InOrder := by
  rw [load] at h
  split at h
  · rw [ofSource] at h
    split at h
    · cases h
    · split at h
      · cases h
      · next hparse =>
        cases h
        exact Exports.inOrder_of_parse hparse
  · cases h

end StaticSite
