import StaticSite.Command.Scaffold
import StaticSite.Proofs.NewFiles
import StaticSite.Proofs.Outcome
import StaticSite.Proofs.SheetOrder
import StaticSite.Site.Build

/-!
# The starter site

The files of a new site make a site: with the default settings they are prepared, planned and rendered
to one document, which is the same wherever the site is. Its directories have no other files in them
(`Contains`), and a walk finds each of these under the path of its location, so all that is read is
known. What then is written can fail only for what stood in the output directory before.
-/

namespace StaticSite

open Text

variable {d : Disk} {l dir : Location} {name text : String} {files : List (String × String)}

namespace FileTree

/-- A walk finds each file once. -/
theorem nodup_filesAt (t : FileTree) (l : Location) : (t.filesAt l).Nodup := by
  rw [filesAt, List.Nodup, List.pairwise_filterMap]
  refine t.entries.distinct_keys_toList.imp fun {a b} hne k hk k' hk' => ?_
  obtain ⟨key, content | _⟩ := a
  · obtain ⟨key', content' | _⟩ := b
    · obtain ⟨-, rfl⟩ : l.isPrefixOf key = true ∧ key = k := by simpa using hk
      obtain ⟨-, rfl⟩ : l.isPrefixOf key' = true ∧ key' = k' := by simpa using hk'
      exact fun heq => hne (Std.LawfulEqCmp.compare_eq_iff_eq.2 heq)
    · cases hk'
  · cases hk

theorem nodup_namesBelow (t : FileTree) (l : Location) : (t.namesBelow l).Nodup := by
  refine (t.nodup_filesAt l).map_on fun k hk k' hk' hdrop => ?_
  obtain ⟨names, rfl⟩ := (mem_filesAt.1 hk).1
  obtain ⟨names', rfl⟩ := (mem_filesAt.1 hk').1
  rw [List.drop_left, List.drop_left] at hdrop
  rw [hdrop]

end FileTree

theorem fromUTF8?_toUTF8 (text : String) : String.fromUTF8? text.toUTF8 = some text := by
  rw [String.toUTF8_eq_toByteArray, String.fromUTF8?, dif_pos text.isValidUTF8]
  rfl

/-! ## Directories with known files -/

/-- A directory has files with these names and texts in it and no others, also not deeper down. -/
def Contains (d : Disk) (dir : Location) (files : List (String × String)) : Prop :=
  ∀ names, d.tree.content? (dir ++ names) =
    (files.map fun file => ([file.1], file.2.toUTF8)).lookup names

namespace Contains

theorem lookup_map (files : List (String × String)) (name : String) :
    (files.map fun file => ([file.1], file.2.toUTF8)).lookup [name] =
      (files.lookup name).map String.toUTF8 := by
  induction files with
  | nil => rfl
  | cons file files ih =>
    obtain ⟨key, text⟩ := file
    rw [List.map_cons, List.lookup_cons, List.lookup_cons, ih]
    by_cases hkey : name = key
    · rw [hkey, beq_self_eq_true, beq_self_eq_true]
      rfl
    · have hkeys : [name] ≠ [key] := fun heq => hkey (List.singleton_inj.1 heq)
      rw [beq_eq_false_iff_ne.2 hkey, beq_eq_false_iff_ne.2 hkeys]

theorem content? (h : Contains d dir files) (hfile : files.lookup name = some text) :
    d.tree.content? (dir ++ [name]) = some text.toUTF8 := by
  rw [h [name], lookup_map, hfile, Option.map_some]

theorem mem_namesBelow (h : Contains d dir files) {names : Location} :
    names ∈ d.tree.namesBelow dir ↔ ∃ file ∈ files, names = [file.1] := by
  rw [FileTree.mem_namesBelow]
  constructor
  · rintro ⟨content, hcontent⟩
    rw [h names] at hcontent
    obtain ⟨before, behind, heq, -⟩ := List.lookup_eq_some_iff.1 hcontent
    have hmem : (names, content) ∈ files.map fun file => ([file.1], file.2.toUTF8) := by
      rw [heq]
      simp
    obtain ⟨file, hfile, heq⟩ := List.mem_map.1 hmem
    exact ⟨file, hfile, (Prod.mk.inj heq).1.symm⟩
  · rintro ⟨⟨key, text⟩, hfile, rfl⟩
    rcases hlookup : files.lookup key with _ | text'
    · exact absurd (beq_self_eq_true key)
        (by simpa using List.lookup_eq_none_iff.1 hlookup (key, text) hfile)
    · exact ⟨_, h.content? hlookup⟩

theorem isDirectory (h : Contains d dir files) (hne : files ≠ []) :
    d.tree.isDirectory dir = true := by
  obtain ⟨file, hfile⟩ := List.exists_mem_of_ne_nil files hne
  obtain ⟨content, hcontent⟩ :=
    FileTree.mem_namesBelow.1 (h.mem_namesBelow.2 ⟨file, hfile, rfl⟩)
  exact (FileTree.get?_append_ne_none (FileTree.get?_ne_none_of_content? hcontent)).2
    (List.cons_ne_nil _ _)

theorem isFileName (h : Contains d dir files) {file : String × String} (hfile : file ∈ files) :
    ∀ other ∈ dir ++ [file.1], IsFileName other := by
  obtain ⟨content, hcontent⟩ :=
    FileTree.mem_namesBelow.1 (h.mem_namesBelow.2 ⟨file, hfile, rfl⟩)
  exact FileTree.isFileName_of_content? (l := []) hcontent

/-- A walk finds each file under the path of its location. -/
theorem filesUnder_eq (h : Contains d dir files) (hne : files ≠ []) :
    d.filesUnder (Disk.pathOf dir) =
      (d.tree.namesBelow dir).map fun names => Disk.pathOf (dir ++ names) := by
  have hdir := FileTree.get?_ne_none_of_isDirectory (h.isDirectory hne)
  rw [Disk.filesUnder_eq (Disk.locate?_pathOf hdir)]
  refine List.map_congr_left fun names hnames => ?_
  obtain ⟨file, hfile, rfl⟩ := h.mem_namesBelow.1 hnames
  have hall := List.forall_mem_append.1 (h.isFileName hfile)
  exact Disk.pathOf_child hall.1 (hall.2 file.1 (List.mem_singleton_self _))

theorem filesUnder_single (h : Contains d dir [(name, text)]) :
    d.filesUnder (Disk.pathOf dir) = [Disk.pathOf (dir ++ [name])] := by
  have hall : ∀ names ∈ d.tree.namesBelow dir, names = [name] := by
    intro names hnames
    obtain ⟨file, hfile, rfl⟩ := h.mem_namesBelow.1 hnames
    rw [List.mem_singleton.1 hfile]
  have hmem : [name] ∈ d.tree.namesBelow dir :=
    h.mem_namesBelow.2 ⟨_, List.mem_singleton_self _, rfl⟩
  have hone : d.tree.namesBelow dir = [[name]] := by
    have hnodup := d.tree.nodup_namesBelow dir
    have hpos := List.length_pos_of_mem hmem
    rw [List.eq_replicate_of_mem hall] at hnodup ⊢
    have hle := List.nodup_replicate.1 hnodup
    have hlength : (d.tree.namesBelow dir).length = 1 := by omega
    rw [hlength]
    rfl
  rw [h.filesUnder_eq (List.cons_ne_nil _ _), hone]
  rfl

theorem readText? (h : Contains d dir files) (hfile : files.lookup name = some text) :
    d.readText? (Disk.pathOf (dir ++ [name])) = some text := by
  have hcontent := h.content? hfile
  rw [Disk.readText?, Disk.read?_eq,
    Disk.locate?_pathOf (FileTree.get?_ne_none_of_content? hcontent), Option.bind_some, hcontent,
    Option.bind_some, fromUTF8?_toUTF8]

end Contains

/-! ## Style sheets -/

namespace AssetIndex

/-- The index of a directory with known files has them all under the paths of their locations. -/
theorem load_of_contains (h : Contains d dir files) (hne : files ≠ [])
    (hkeys : ∀ file ∈ files, files.lookup file.1 = some file.2) (selects : String → Bool)
    (hselects : ∀ file ∈ files, selects (Disk.pathOf (dir ++ [file.1])).text = true)
    (schedule : Schedule Path) :
    ∃ index, AssetIndex.load d (Disk.pathOf dir) selects schedule = .ok index ∧
      ∀ file ∈ files, index.get? (Disk.pathOf (dir ++ [file.1])) = some file.2 := by
  have hpaths : ∀ p ∈ d.filesUnder (Disk.pathOf dir),
      ∃ file ∈ files, p = Disk.pathOf (dir ++ [file.1]) := by
    intro p hp
    rw [h.filesUnder_eq hne] at hp
    obtain ⟨names, hnames, rfl⟩ := List.mem_map.1 hp
    obtain ⟨file, hfile, rfl⟩ := h.mem_namesBelow.1 hnames
    exact ⟨file, hfile, rfl⟩
  have hread : ∀ file ∈ files, d.readText? (Disk.pathOf (dir ++ [file.1])) = some file.2 :=
    fun file hfile => h.readText? (hkeys file hfile)
  have hfilter : (d.filesUnder (Disk.pathOf dir)).filter (fun p => selects p.text) =
      d.filesUnder (Disk.pathOf dir) := by
    refine List.filter_eq_self.2 fun p hp => ?_
    obtain ⟨file, hfile, rfl⟩ := hpaths p hp
    exact hselects file hfile
  have hload : AssetIndex.load d (Disk.pathOf dir) selects schedule =
      .ok ⟨(d.filesUnder (Disk.pathOf dir)).map fun p => (p.clean, (d.readText? p).getD "")⟩ := by
    rw [AssetIndex.load, hfilter, Schedule.collect_eq_ok.2 (mapM_of_forall
      (g := fun p => (p.clean, (d.readText? p).getD "")) fun p hp => ?_)]
    · rfl
    · obtain ⟨file, hfile, rfl⟩ := hpaths p hp
      rw [hread file hfile]
      rfl
  refine ⟨_, hload, fun file hfile => ?_⟩
  have hnames := h.isFileName hfile
  have hmem : Disk.pathOf (dir ++ [file.1]) ∈ d.filesUnder (Disk.pathOf dir) := by
    rw [h.filesUnder_eq hne]
    exact List.mem_map_of_mem (h.mem_namesBelow.2 ⟨file, hfile, rfl⟩)
  rw [AssetIndex.get?, Option.map_eq_some_iff]
  rcases hfind : List.find? (fun entry : Path × String =>
    entry.1.same (Disk.pathOf (dir ++ [file.1])).clean) (List.reverse _) with _ | found
  · have hself := List.find?_eq_none.1 hfind _ (List.mem_reverse.2 (List.mem_map_of_mem hmem))
    exact absurd (decide_eq_true rfl) hself
  · refine ⟨found, rfl, ?_⟩
    -- what is found has the same parts, so it is this file
    have hsame := List.find?_some hfind
    obtain ⟨p, hp, rfl⟩ := List.mem_map.1 (List.mem_reverse.1 (List.mem_of_find?_eq_some hfind))
    obtain ⟨file', hfile', rfl⟩ := hpaths p hp
    have hnames' := h.isFileName hfile'
    rw [Path.clean_pathOf hnames, Path.clean_pathOf hnames',
      Path.same_pathOf hnames' hnames] at hsame
    rw [hsame, hread file hfile]
    rfl

/-- The path of a style sheet, from the root of a site whose assets are where they usually are. -/
theorem resolve?_of_get? {index : AssetIndex}
    (h : ∀ other ∈ l ++ ["assets"] ++ [name], IsFileName other)
    (hget : index.get? (Disk.pathOf (l ++ ["assets"] ++ [name])) = some text) :
    index.resolve? (Disk.pathOf l) ("assets/" ++ name) = some text := by
  have hout := List.forall_mem_append.1 h
  have hl := List.forall_mem_append.1 hout.1
  have hassets : IsFileName "assets" := by decide
  have hname := hout.2 name (List.mem_singleton_self _)
  have hslash : (("assets/" ++ name).toList.dropWhile (· = '/')) = ("assets/" ++ name).toList := by
    simp
  rw [resolve?, hslash, String.ofList_toList, ← hget, ← Disk.pathOf_child hout.1 hname,
    ← Disk.pathOf_child hl.1 hassets, Path.child_child hassets hname]
  rfl

end AssetIndex

namespace Pattern

/-- What is found in the rest of a text is found in the text. -/
theorem foundFrom_append {p : Pattern} {t : List Char} (h : ∀ before?, p.foundFrom before? t = true)
    (s : List Char) (before? : Option Char) : p.foundFrom before? (s ++ t) = true := by
  induction s generalizing before? with
  | nil => exact h before?
  | cons c s ih =>
    rw [List.cons_append, foundFrom.eq_def]
    split
    · rfl
    · exact ih (some c)

/-- The pattern that style sheets have if the settings say nothing. -/
def sheetName : Pattern :=
  .seq (.char (.one '.')) <| .seq (.char (.one 'c')) <| .seq (.char (.one 's')) <|
    .seq (.char (.one 's')) (.edge .textEnd)

theorem filters?_default : ({} : BuildSettings).filters? = some [sheetName] := by cbv

theorem isIn_sheetName (text : String) : sheetName.isIn (text ++ ".css") = true := by
  rw [isIn, String.toList_append]
  exact foundFrom_append (fun _ => rfl) _ _

end Pattern

/-! ## A single component -/

namespace Registry

variable {I : Type} {make : Template.Spec I → Except RenderError I} {c : Component I} {i : I}
  {r : Registry I}

theorem insert_empty (c : Component I) :
    ∃ r, insert {} c = .ok r ∧ r.components = [c] ∧ r.index = [(c.name, 0)] :=
  ⟨_, rfl, rfl, rfl⟩

/-- What the passes make of a component that is alone and does not use itself. -/
theorem prepare_single (hc : r.components = [c]) (hindex : r.index = [(c.name, 0)])
    (htags : c.name ∉ c.tags) (hmake : make ⟨c.name, c.blocks.template, c.exports, []⟩ = .ok i) :
    ∃ p, r.prepare make = (p, .ok ()) ∧ p.stage = .materialized ∧ p.index = [(c.name, 0)] ∧
      p.components =
        [{ c with deps := [], styles := distinct c.exports.styles, built? := some i }] := by
  have hdeps : r.resolveTags c.tags = [] := by
    refine List.filterMap_eq_nil_iff.2 fun tag htag => ?_
    have hne : c.name ≠ tag := fun heq => htags (heq ▸ htag)
    rw [idOf?, hindex, Dict.get?, if_neg hne, Dict.get?]
  have hlink : r.link.components = [{ c with deps := [] }] := by
    simp [link, withComponents, hc, hdeps]
  have horder : r.link.postOrder = .ok [0] := by
    have hwalk : (⟨[[]]⟩ : Graph).depthFirst = .ok [0] := by cbv
    rw [postOrder_eq_ok, graph, hlink]
    exact hwalk
  have hstyled : (r.styledAlong [0]).components =
      [{ c with deps := [], styles := distinct c.exports.styles }] := by
    simp [styledAlong, styleOne, modify, withComponents, checked, stylesOf, hlink]
  have hspec : (r.styledAlong [0]).specOf
      { c with deps := [], styles := distinct c.exports.styles } =
        ⟨c.name, c.blocks.template, c.exports, []⟩ := rfl
  rw [prepare_eq_prepareAlong horder, prepareAlong, materializeAll, hstyled]
  simp only [List.getElem?_cons_zero, hspec, hmake]
  refine ⟨_, rfl, rfl, hindex, ?_⟩
  simp [equip, modify, withComponents, hstyled]

end Registry

/-- A document whose parts are all made. -/
theorem Site.render_of_ok {site : Site} {job : PageJob} {styles body : String} {data : Data}
    {made : Instance} (hrequire : site.registry.require .materialized = .ok ())
    (hstyles : site.pageStyles job = .ok styles) (hdata : Site.pageData job = .ok data)
    (hmade : Template.instantiate ⟨job.page.name, job.page.blocks.template, job.page.exports,
      site.registry.instancesOf (site.used job.page)⟩ = .ok made)
    (hbody : Template.render made data = .ok body) :
    site.render job =
      .ok (site.minifier.html (Document.assemble (site.minifier.css styles) body site.script?)) := by
  rw [Site.render, hrequire, hstyles, hdata]
  simp only [Bind.bind, Except.bind, hmade, hbody]
  rfl

/-! ## The starter files -/

namespace Starter

open Scaffold

/-- The blocks of the starter component. -/
def cardBlocks : Blocks where
  template := "<div class=\"card\">\n    <h2>\x7b\x7b title \x7d\x7d</h2>\n" ++
    "    <slot>Nothing here yet.</slot>\n  </div>"
  script := "export default \x7b\n  css: [\"assets/card.css\"],\n" ++
    "  props: \x7b title: \"Untitled\" \x7d,\n\x7d"

/-- The blocks of the starter page. -/
def pageBlocks : Blocks where
  template := "<main>\n    <h1>\x7b\x7b title \x7d\x7d</h1>\n" ++
    "    <Card title=\"Getting started\">\n" ++
    "      Edit this page under pages/ and the card under components/.\n    </Card>\n  </main>"
  script := "export default \x7b\n  css: [\"assets/site.css\"],\n" ++
    "  props: \x7b title: \"Hello, vela\" \x7d,\n\x7d"

/-- What a script exports, or nothing if that cannot be read. -/
def exportsOf (blocks : Blocks) : Exports := (Exports.parse blocks.script).toOption.getD {}

theorem parse_card : Blocks.parse card = .ok cardBlocks := by
  unfold Blocks.parse card
  -- a literal shows its characters as it is written; to find them by evaluation is slow
  simp only [String.toList_append, -String.reduceAppend, -String.reduceToList]
  repeat rw [String.toList_ofList]
  decide +kernel

theorem parse_page : Blocks.parse page = .ok pageBlocks := by
  unfold Blocks.parse page
  simp only [String.toList_append, -String.reduceAppend, -String.reduceToList]
  repeat rw [String.toList_ofList]
  decide +kernel

theorem parse_script {blocks : Blocks} (h : (Exports.parse blocks.script).isOk = true) :
    Exports.parse blocks.script = .ok (exportsOf blocks) := by
  rw [exportsOf]
  rcases hparse : Exports.parse blocks.script with e | exports
  · rw [hparse] at h
    cases h
  · rfl

/-- The component in a file. -/
theorem load_eq_ok {I : Type} {p : Path} {raw stem : String} {blocks : Blocks}
    (hread : d.readText? p = some raw) (hstem : p.stem? = some stem)
    (hblocks : Blocks.parse raw = .ok blocks)
    (hscript : (Exports.parse blocks.script).isOk = true) :
    Component.load d p =
      .ok ({ name := stem, path := p, blocks, exports := exportsOf blocks } : Component I) := by
  simp only [Component.load, hread, Component.ofSource, hblocks, parse_script hscript, hstem,
    Option.getD_some]

/-- The body of the starter page, from its files alone. -/
def body? : Option String := do
  let card ← (Template.instantiate
    ⟨"Card", cardBlocks.template, exportsOf cardBlocks, []⟩).toOption
  let page ← (Template.instantiate
    ⟨"index", pageBlocks.template, exportsOf pageBlocks, [("Card", card)]⟩).toOption
  let props ← (exportsOf pageBlocks).props?
  let data ← (props.data {}).toOption
  (Template.render page data).toOption

/-- The body of the document. -/
def body : String :=
  "<main>\n    <h1>Hello, vela</h1>\n    <div class=\"card\">\n    <h2>Getting started</h2>\n" ++
    "    \n      Edit this page under pages/ and the card under components/.\n    \n  </div>\n" ++
    "  </main>"

theorem body?_eq : body? = some body := by decide +kernel

/-- The document of the starter page. -/
def document {library : ByteArray → ByteArray} (minifier : Minifier library) : String :=
  let styles := "".intercalate [cardSheet ++ "\n", siteSheet ++ "\n"]
  minifier.html (Document.assemble (minifier.css styles) body none)

theorem document_congr {library library' : ByteArray → ByteArray} {minifier : Minifier library}
    {minifier' : Minifier library'} (hlibrary : library = library')
    (henabled : minifier.enabled = minifier'.enabled) : document minifier = document minifier' := by
  subst hlibrary
  obtain rfl : minifier = minifier' := congrArg Minifier.mk henabled
  rfl

theorem exports_card : (exportsOf cardBlocks).styles = ["assets/card.css"] := by decide +kernel

theorem exports_page : (exportsOf pageBlocks).styles = ["assets/site.css"] := by decide +kernel

/-- The default settings for a site at a location. -/
def settings (l : Location) (minify : Bool) : BuildSettings where
  root? := some (Disk.pathOf l)
  pages := Disk.pathOf (l ++ ["pages"])
  components := Disk.pathOf (l ++ ["components"])
  assets := Disk.pathOf (l ++ ["assets"])
  output := Disk.pathOf (l ++ ["dist"])
  minify

theorem isFileName_pages : IsFileName "pages" := by decide

theorem isFileName_dist : IsFileName "dist" := by decide

/-- The style sheets of a new site. -/
def sheets : List (String × String) := [("card.css", cardSheet), ("site.css", siteSheet)]

theorem lookup_sheets : ∀ file ∈ sheets, sheets.lookup file.1 = some file.2 := by decide +kernel

/-- The files of a new site are where the default settings look for them. -/
structure At (d : Disk) (l : Location) : Prop where
  /-- the page -/
  pages : Contains d (l ++ ["pages"]) [("index.vue", page)]
  /-- the component -/
  components : Contains d (l ++ ["components"]) [("Card.vue", card)]
  /-- the style sheets -/
  assets : Contains d (l ++ ["assets"]) sheets

/-- The site lies in a directory. -/
theorem At.isDirectory (h : At d l) : d.tree.isDirectory l = true := by
  have hpages := h.pages.isDirectory (List.cons_ne_nil _ _)
  exact (FileTree.get?_concat_ne_none (FileTree.get?_ne_none_of_isDirectory hpages)).2

variable {minify : Bool} {stem : String} {runtime : Runtime}

theorem splitName_page : Path.splitName "index.vue" = ("index", some "vue") := by decide +kernel

theorem splitName_card : Path.splitName "Card.vue" = ("Card", some "vue") := by decide +kernel

theorem stem?_pathOf (h : ∀ other ∈ dir ++ [name], IsFileName other)
    (hname : Path.splitName name = (stem, some "vue")) :
    (Disk.pathOf (dir ++ [name])).stem? = some stem := by
  rw [Path.stem?, Path.fileName?_pathOf h, Option.map_some, hname]

/-- The source file of a directory that has one file. -/
theorem collect_single (h : Contains d dir [(name, text)])
    (hname : Path.splitName name = (stem, some "vue")) :
    Component.collect d "vue" (Disk.pathOf dir) = [Disk.pathOf (dir ++ [name])] := by
  have hnames := h.isFileName (List.mem_singleton_self _)
  have hsource : Component.isSource "vue" (Disk.pathOf (dir ++ [name])) = true := by
    rw [Component.isSource, Path.extension?, Path.fileName?_pathOf hnames, Option.bind_some, hname,
      decide_eq_true_eq]
  rw [Component.collect, h.filesUnder_single, List.filter_cons_of_pos hsource, List.filter_nil]

/-- The component of a directory that has one file. -/
theorem load_single {I : Type} {blocks : Blocks} (h : Contains d dir [(name, text)])
    (hname : Path.splitName name = (stem, some "vue")) (hblocks : Blocks.parse text = .ok blocks)
    (hscript : (Exports.parse blocks.script).isOk = true) :
    Component.load d (Disk.pathOf (dir ++ [name])) =
      .ok ({ name := stem, path := Disk.pathOf (dir ++ [name]), blocks,
             exports := exportsOf blocks } : Component I) := by
  have hnames := h.isFileName (List.mem_singleton_self _)
  have hlookup : [(name, text)].lookup name = some text := List.lookup_cons_self
  exact load_eq_ok (h.readText? hlookup) (stem?_pathOf hnames hname) hblocks hscript

/-- What the starter site is when it is prepared. -/
structure Prepared (l : Location) (minify : Bool) (library : ByteArray → ByteArray)
    (card : Instance) (site : Site) : Prop where
  /-- the settings are kept -/
  settings_eq : site.settings = settings l minify
  /-- all passes are made -/
  stage_eq : site.registry.stage = .materialized
  /-- the component has its name -/
  index_eq : site.registry.index = [("Card", 0)]
  /-- the component has its style sheet and its instance -/
  component : ∃ c, site.registry.components = [c] ∧ c.name = "Card" ∧
    c.styles = ["assets/card.css"] ∧ c.built? = some card
  /-- the style sheets are found -/
  sheet : ∀ file ∈ sheets, site.assets.resolve? (Disk.pathOf l) ("assets/" ++ file.1) = some file.2
  /-- documents are made smaller if they are to be -/
  enabled_eq : site.minifier.enabled = minify
  /-- with the library at hand -/
  library_eq : site.library = library
  /-- documents get no script -/
  script?_eq : site.script? = none

theorem isIn_sheetName (h : At d l) {file : String × String} (hfile : file ∈ sheets) :
    Pattern.sheetName.isIn (Disk.pathOf (l ++ ["assets"] ++ [file.1])).text = true := by
  have hnames := List.forall_mem_append.1 (h.assets.isFileName hfile)
  have hname := hnames.2 file.1 (List.mem_singleton_self _)
  obtain ⟨s, hs⟩ := (Disk.pathOf (l ++ ["assets"])).exists_text_child hname.plain.1
  obtain ⟨stem, hstem⟩ : ∃ stem, file.1 = stem ++ ".css" := by
    rcases List.mem_cons.1 hfile with rfl | hfile
    · exact ⟨"card", by decide⟩
    · exact ⟨"site", by rw [List.mem_singleton.1 hfile]; decide⟩
  rw [← Disk.pathOf_child hnames.1 hname, hs, hstem, ← String.append_assoc]
  exact Pattern.isIn_sheetName _

theorem prepare (h : At d l) (minify : Bool) (runtime : Runtime) {made : Instance}
    (hmake : Template.instantiate ⟨"Card", cardBlocks.template, exportsOf cardBlocks, []⟩ =
      .ok made) :
    ∃ site, Site.prepare d (settings l minify) none runtime = .ok site ∧
      Prepared l minify runtime.library made site := by
  have hfilters : (settings l minify).filters? = some [Pattern.sheetName] :=
    Pattern.filters?_default
  obtain ⟨index, hindex, hget⟩ := AssetIndex.load_of_contains h.assets (List.cons_ne_nil _ _)
    lookup_sheets (fun text => [Pattern.sheetName].any (·.isIn text)) (fun file hfile => by
      rw [List.any_cons, isIn_sheetName h hfile, Bool.true_or]) runtime.sheets
  have hcollect : Component.collect d "vue" (Disk.pathOf (l ++ ["components"])) =
      [Disk.pathOf (l ++ ["components"] ++ ["Card.vue"])] :=
    collect_single h.components splitName_card
  have hload := load_single (I := Instance) h.components splitName_card parse_card
    (by decide +kernel)
  obtain ⟨loaded, hloaded, hc, hi⟩ := Registry.insert_empty _
  have hall : Component.loadAll d "vue" (Disk.pathOf (l ++ ["components"])) runtime.components =
      .ok loaded := by
    rw [Component.loadAll, hcollect, Schedule.collect_singleton, hload]
    exact hloaded
  have htags : "Card" ∉ Markup.tagNames cardBlocks.template := by decide +kernel
  have hstyles : distinct (exportsOf cardBlocks).styles = ["assets/card.css"] := by
    rw [exports_card]
    rfl
  obtain ⟨p, hprepare, hstage, hpindex, hpc⟩ := Registry.prepare_single hc hi htags hmake
  refine ⟨⟨settings l minify, p, index, runtime.library, ⟨minify⟩, none⟩, ?_, rfl, hstage, hpindex,
    ⟨_, hpc, rfl, hstyles, rfl⟩, fun file hfile => ?_, rfl, rfl, rfl⟩
  · have hassets : AssetIndex.load d (settings l minify).assets
        (fun text => [Pattern.sheetName].any (·.isIn text)) runtime.sheets = .ok index := hindex
    have hcomponents : Component.loadAll d (settings l minify).extension
        (settings l minify).components runtime.components = .ok loaded := hall
    simp only [Site.prepare, hfilters, hassets, hcomponents, hprepare, Bind.bind, Except.bind,
      Pure.pure, Except.pure]
    rfl
  · exact AssetIndex.resolve?_of_get? (h.assets.isFileName hfile) (hget file hfile)

/-- The starter page, read from its file. -/
def pageComponent (l : Location) : Component Instance where
  name := "index"
  path := Disk.pathOf (l ++ ["pages"] ++ ["index.vue"])
  blocks := pageBlocks
  exports := exportsOf pageBlocks

/-- The only document. -/
def job (l : Location) : PageJob :=
  ⟨Disk.pathOf (l ++ ["pages"] ++ ["index.vue"]), Disk.pathOf (l ++ ["dist"] ++ ["index.html"]),
    none, pageComponent l⟩

/-- The document of the page lies at the top of the output. -/
theorem outputPath_page (h : ∀ name ∈ l, IsFileName name) :
    Page.outputPath (Disk.pathOf (l ++ ["pages"])) (Disk.pathOf (l ++ ["dist"]))
        (Disk.pathOf (l ++ ["pages"] ++ ["index.vue"])) none =
      .ok (Disk.pathOf (l ++ ["dist"] ++ ["index.html"])) := by
  have hvue : IsFileName "index.vue" := by decide
  have hpages := isFileName_concat h isFileName_pages
  have hstem := stem?_pathOf (isFileName_concat hpages hvue) splitName_page
  have hrelative : (Disk.pathOf (l ++ ["pages"] ++ ["index.vue"])).relativeTo
      (Disk.pathOf (l ++ ["pages"])) = ⟨"index.vue"⟩ := by
    rw [← Disk.pathOf_child hpages hvue, Path.relativeTo_child _ hvue]
  have hparent : (⟨"index.vue"⟩ : Path).parent?.getD ⟨""⟩ = ⟨""⟩ := by decide +kernel
  rw [← Disk.pathOf_child (isFileName_concat h isFileName_dist) Page.isFileName_index,
    ← Path.child_join_empty _ Page.isFileName_index.plain.1, Page.outputPath]
  simp only [hrelative, hparent, hstem, Option.getD_some, if_pos]
  rfl

theorem plan (h : At d l) : Site.plan d (settings l minify) runtime = .ok [job l] := by
  have hnames := h.pages.isFileName (List.mem_singleton_self _)
  have hl := (List.forall_mem_append.1 (List.forall_mem_append.1 hnames).1).1
  have hstatic : Page.isDynamic (Disk.pathOf (l ++ ["pages"] ++ ["index.vue"])) = false := by
    rw [Page.isDynamic, stem?_pathOf hnames splitName_page]
    decide +kernel
  have houtput : Page.outputPath (settings l minify).pages (settings l minify).output
      (Disk.pathOf (l ++ ["pages"] ++ ["index.vue"])) none =
        .ok (Disk.pathOf (l ++ ["dist"] ++ ["index.html"])) := outputPath_page hl
  have hload : Component.load d (Disk.pathOf (l ++ ["pages"] ++ ["index.vue"])) =
      .ok (pageComponent l) :=
    load_single h.pages splitName_page parse_page (by decide +kernel)
  have hpage : Site.planPage d (settings l minify) (Disk.pathOf (l ++ ["pages"] ++ ["index.vue"])) =
      .ok [job l] := by
    rw [Site.planPage, hload, houtput, hstatic]
    rfl
  have hcollect : Component.collect d (settings l minify).extension (settings l minify).pages =
      [Disk.pathOf (l ++ ["pages"] ++ ["index.vue"])] :=
    collect_single h.pages splitName_page
  rw [Site.plan, hcollect, Schedule.collect_singleton, hpage]
  rfl

section prepared

variable {site : Site} {made : Instance}

/-- The page uses the component. -/
theorem used_page (h : Prepared l minify runtime.library made site) : site.used (pageComponent l) = [0] := by
  have htags : (Markup.tagNames pageBlocks.template).filterMap
      (fun tag => Dict.get? tag [("Card", 0)]) = [0] := by
    unfold Markup.tagNames pageBlocks
    simp only [String.toList_append, -String.reduceAppend, -String.reduceToList]
    repeat rw [String.toList_ofList]
    decide +kernel
  rw [Site.used, Registry.resolveTags, ← htags]
  refine List.filterMap_congr fun tag _ => ?_
  rw [Registry.idOf?, h.index_eq]

theorem instancesOf_page (h : Prepared l minify runtime.library made site) :
    site.registry.instancesOf (site.used (pageComponent l)) = [("Card", made)] := by
  obtain ⟨c, hcomponents, hname, -, hbuilt⟩ := h.component
  rw [used_page h, Registry.instancesOf, hcomponents, List.filterMap_cons, List.getElem?_cons_zero]
  simp only [bind, Option.bind, hbuilt, hname]
  rfl

/-- The style sheet of the component comes before that of the page. -/
theorem pageStyles_page (h : Prepared l minify runtime.library made site) :
    site.pageStyles (job l) = .ok ("".intercalate [cardSheet ++ "\n", siteSheet ++ "\n"]) := by
  obtain ⟨c, hcomponents, -, hstyles, -⟩ := h.component
  have hsheets : site.styleSheets (pageComponent l) = ["assets/site.css", "assets/card.css"] := by
    have hown : (pageComponent l).exports.styles = ["assets/site.css"] := exports_page
    rw [Site.styleSheets, hown, used_page h, hcomponents, List.flatMap_cons, List.flatMap_nil,
      List.getElem?_cons_zero, Option.map_some, hstyles]
    rfl
  have hroot : site.settings.root = Disk.pathOf l := by
    rw [h.settings_eq]
    rfl
  have hsite : site.assets.resolve? (Disk.pathOf l) "assets/site.css" = some siteSheet :=
    h.sheet ("site.css", siteSheet) (List.mem_cons_of_mem _ List.mem_cons_self)
  have hcard : site.assets.resolve? (Disk.pathOf l) "assets/card.css" = some cardSheet :=
    h.sheet ("card.css", cardSheet) List.mem_cons_self
  rw [Site.pageStyles, job, hsheets, List.mapM_cons, List.mapM_cons, List.mapM_nil, hroot, hsite,
    hcard]
  rfl

theorem render {made' : Instance} {data : Data} {props : PropSource}
    (h : Prepared l minify runtime.library made site)
    (hpage : Template.instantiate
      ⟨"index", pageBlocks.template, exportsOf pageBlocks, [("Card", made)]⟩ = .ok made')
    (hprops : (exportsOf pageBlocks).props? = some props) (hdata : props.data {} = .ok data)
    (hbody : Template.render made' data = .ok body) :
    site.render (job l) = .ok (document (⟨minify⟩ : Minifier runtime.library)) := by
  have hrequire : site.registry.require .materialized = .ok () := by
    rw [Registry.require, h.stage_eq]
    rfl
  have hpageData : Site.pageData (job l) = .ok data := by
    have hexports : (pageComponent l).exports.props? = some props := hprops
    have hroute : (none : Option Route).getD {} = {} := rfl
    simp only [Site.pageData, job, hexports, hroute, hdata]
  have hmade : Template.instantiate ⟨(pageComponent l).name, (pageComponent l).blocks.template,
      (pageComponent l).exports,
      site.registry.instancesOf (site.used (pageComponent l))⟩ = .ok made' := by
    rw [instancesOf_page h]
    exact hpage
  rw [Site.render_of_ok hrequire (pageStyles_page h) hpageData hmade hbody, h.script?_eq]
  exact congrArg _ (document_congr h.library_eq h.enabled_eq)

end prepared

/-- **The starter files render.** With the default settings they make one document. -/
theorem renderAll (h : At d l) (minify : Bool) (runtime : Runtime) :
    ∃ rendered, Site.renderAll d (settings l minify) none runtime = .ok rendered ∧
      rendered.documents = [(Disk.pathOf (l ++ ["dist"] ++ ["index.html"]),
        document (⟨minify⟩ : Minifier runtime.library))] := by
  have hbody := body?_eq
  simp only [body?, Option.bind_eq_bind, Option.bind_eq_some_iff] at hbody
  obtain ⟨made, hmake, made', hpage, props, hprops, data, hdata, hbody⟩ := hbody
  obtain ⟨site, hprepare, hsite⟩ := prepare h minify runtime (eq_ok_of_toOption hmake)
  have hrender := render hsite (eq_ok_of_toOption hpage) hprops (eq_ok_of_toOption hdata)
    (eq_ok_of_toOption hbody)
  refine ⟨⟨site, [((job l).output, document ⟨minify⟩)]⟩, ?_, rfl⟩
  rw [Site.renderAll, hprepare, plan h]
  simp only [Bind.bind, Except.bind, Schedule.collect_singleton, hrender]
  rfl

/-- The files that the starter site puts into its output directory. -/
def outputs : List String := ["index.html", "card.css", "site.css"]

theorem mem_outputs : ∀ file ∈ sheets, file.1 ∈ outputs := by decide

/-- The path that a file is copied to. -/
theorem copyTarget (h : ∀ other ∈ l, IsFileName other) (hname : IsFileName name) :
    (Disk.pathOf (l ++ ["dist"])).join
        ((Disk.pathOf (l ++ ["assets"] ++ [name])).relativeTo (Disk.pathOf (l ++ ["assets"]))) =
      Disk.pathOf (l ++ ["dist"] ++ [name]) := by
  have hassets : IsFileName "assets" := by decide
  rw [← Disk.pathOf_child (isFileName_concat h hassets) hname, Path.relativeTo_child _ hname,
    ← Disk.pathOf_child (isFileName_concat h isFileName_dist) hname]
  rfl

/-- A style sheet of the starter site is copied as it is. -/
theorem copyAsset (hassets : Contains d (l ++ ["assets"]) sheets) (hold : CanHold d l "dist" outputs)
    {file : String × String} (hfile : file ∈ sheets) :
    ∃ d', StaticSite.copyAsset d (Disk.pathOf (l ++ ["assets"])) (Disk.pathOf (l ++ ["dist"]))
        (Disk.pathOf (l ++ ["assets"] ++ [file.1])) = (d', .ok ()) ∧
      CanHold d' l "dist" outputs ∧
      ∀ k, d'.tree.content? k =
        if k = l ++ ["dist"] ++ [file.1] then some file.2.toUTF8 else d.tree.content? k := by
  have hl := isFileName_of_isDirectory hold.above
  have hname := hassets.isFileName hfile file.1 (by simp)
  rw [StaticSite.copyAsset, copyTarget hl hname]
  refine hold.putFile isFileName_dist hname (mem_outputs file hfile) fun d₁ hsame => ?_
  have hcontent : d₁.tree.content? (l ++ ["assets"] ++ [file.1]) = some file.2.toUTF8 :=
    (hsame _).trans (hassets.content? (lookup_sheets file hfile))
  have hsource := Disk.locate?_pathOf (d := d₁) (FileTree.get?_ne_none_of_content? hcontent)
  rw [Disk.copy, Disk.read?_eq, hsource, Option.bind_some, hcontent]
  refine if_neg fun heq => ?_
  -- the copy lies elsewhere
  have hplace := Disk.locate?_eq_some heq.symm
  rw [Disk.place_pathOf _ (isFileName_concat (isFileName_concat hl isFileName_dist) hname)] at hplace
  simp at hplace

/-- All style sheets are copied, and no other file is put. -/
theorem copyAssets (hassets : Contains d (l ++ ["assets"]) sheets)
    (hold : CanHold d l "dist" outputs) (schedule : Schedule Path) :
    ∃ d' n, StaticSite.copyAssets d (Disk.pathOf (l ++ ["assets"])) (Disk.pathOf (l ++ ["dist"]))
        schedule = (d', .ok n) ∧
      ∀ k, (∀ file ∈ sheets, k ≠ l ++ ["dist"] ++ [file.1]) →
        d'.tree.content? k = d.tree.content? k := by
  -- the assets stay what they are while they are copied
  obtain ⟨d', hcopied, -, hcontent⟩ : ∃ d', schedule.forEach (fun d source =>
        StaticSite.copyAsset d (Disk.pathOf (l ++ ["assets"])) (Disk.pathOf (l ++ ["dist"])) source)
        d (d.filesUnder (Disk.pathOf (l ++ ["assets"]))) = (d', .ok ()) ∧
      CanHold d' l "dist" outputs ∧
      ∀ k, (∀ file ∈ sheets, k ≠ l ++ ["dist"] ++ [file.1]) →
        d'.tree.content? k = d.tree.content? k := by
    refine forEach_ok (fun source hsource d₁ hgood => ?_) ⟨hold, fun _ _ => rfl⟩
    obtain ⟨hold₁, hcontent₁⟩ := hgood
    replace hsource := Schedule.mem_take.1 hsource
    rw [hassets.filesUnder_eq (List.cons_ne_nil _ _)] at hsource
    obtain ⟨names, hnames, rfl⟩ := List.mem_map.1 hsource
    obtain ⟨file, hfile, rfl⟩ := hassets.mem_namesBelow.1 hnames
    have hassets₁ : Contains d₁ (l ++ ["assets"]) sheets := by
      intro names
      rw [hcontent₁ _ (by simp), hassets names]
    obtain ⟨d₂, hcopied, hold₂, hcontent₂⟩ := copyAsset hassets₁ hold₁ hfile
    refine ⟨d₂, hcopied, hold₂, fun k hk => ?_⟩
    rw [hcontent₂, if_neg (hk file hfile), hcontent₁ k hk]
  refine ⟨d', (d.filesUnder (Disk.pathOf (l ++ ["assets"]))).length, ?_, hcontent⟩
  simp only [StaticSite.copyAssets, hcopied]

/-- Where the output directory can hold its files, the document is written and the style sheets are
copied. -/
theorem deliver (h : At d l) (hold : CanHold d l "dist" outputs) (runtime : Runtime)
    {rendered : Site.Rendered} {document : String}
    (hdocuments : rendered.documents =
      [(Disk.pathOf (l ++ ["dist"] ++ ["index.html"]), document)]) :
    ∃ d' summary, Site.deliver d (settings l minify) rendered runtime = (d', .ok summary) ∧
      d'.tree.content? (l ++ ["dist"] ++ ["index.html"]) = some document.toUTF8 := by
  obtain ⟨d₁, hwritten, hold₁, hcontent₁⟩ := hold.writePage isFileName_dist Page.isFileName_index
    List.mem_cons_self document
  have hassets₁ : Contains d₁ (l ++ ["assets"]) sheets := by
    intro names
    rw [hcontent₁, if_neg (by simp), h.assets names]
  obtain ⟨d₂, n, hcopied, hcontent₂⟩ := copyAssets hassets₁ hold₁ runtime.copying
  have hpages := writePages_single hwritten runtime.writing
  rw [← hdocuments] at hpages
  refine ⟨d₂, ⟨rendered.site.registry.size, rendered.documents.length, n⟩, ?_, ?_⟩
  · have hclean : (settings l minify).clean = false := rfl
    have hcopy : (settings l minify).copyAssets = true := rfl
    have hcopied₁ : StaticSite.copyAssets d₁ (settings l minify).assets (settings l minify).output
        runtime.copying = (d₂, .ok n) := hcopied
    simp only [Site.deliver, hclean, hcopy, hpages, hcopied₁, if_pos, Bool.false_eq_true, if_false]
  · rw [hcontent₂, hcontent₁, if_pos rfl]
    simp [sheets]

/-- A build that succeeds has put its files into a directory that could hold them. -/
theorem canHold_of_deliver (h : At d l) {rendered : Site.Rendered} {document : String} {d' : Disk}
    {summary : BuildSummary}
    (hdocuments : rendered.documents =
      [(Disk.pathOf (l ++ ["dist"] ++ ["index.html"]), document)])
    (hok : Site.deliver d (settings l minify) rendered runtime = (d', .ok summary)) :
    CanHold d l "dist" outputs := by
  have habove := h.isDirectory
  have hl := isFileName_of_isDirectory habove
  have hout := isFileName_concat hl isFileName_dist
  have hfile := isFileName_concat hout Page.isFileName_index
  have hplace (here : Location) : (settings l minify).output.place here = l ++ ["dist"] :=
    Disk.place_pathOf here hout
  have hswept : Site.swept d (settings l minify) = d := if_neg (by simp [settings])
  have hlog : Site.written d.here (runtime.writing.take rendered.documents) =
      [(l ++ ["dist"] ++ ["index.html"], document.toUTF8)] := by
    rw [hdocuments, Schedule.take_singleton, Site.written, List.map_singleton,
      List.reverse_singleton, Disk.place_pathOf d.here hfile]
  obtain ⟨d₁, hwritten, -, ⟨-, n, hcopied⟩ | ⟨hcopy, -⟩⟩ := Site.deliver_ok hok
  · rw [hswept, hlog] at hwritten
    have hindex : d₁.tree.content? (l ++ ["dist"] ++ ["index.html"]) ≠ none := by
      rw [hwritten.fills.content?]
      simp
    have hstays {k : Location} (hk : d.tree.content? k ≠ none) : d₁.tree.content? k ≠ none := by
      rw [hwritten.fills.content?, Ne, Option.or_eq_none_iff]
      exact fun hnone => hk hnone.2
    have hdir : d₁.tree.isDirectory (l ++ ["assets"]) = true :=
      hwritten.fills.isDirectory (h.assets.isDirectory (List.cons_ne_nil _ _))
    have hlocate : d₁.locate? (settings l minify).assets = some (l ++ ["assets"]) :=
      Disk.locate?_pathOf (FileTree.get?_ne_none_of_isDirectory hdir)
    have hapart : Apart ((settings l minify).output.place d₁.here) (l ++ ["assets"]) := by
      rw [hplace]
      simp [Apart, List.prefix_append_right_inj]
    obtain ⟨-, hfilled, -⟩ := copyAssets_filled hapart hlocate hcopied
    refine .of_filled habove (hwritten.trans hfilled) (List.cons_ne_nil _ _) fun name hname => ?_
    rw [hfilled.fills.content?, lookup_copies hlocate fun _ => Schedule.mem_take, hplace,
      copied?_append, Ne, Option.or_eq_none_iff]
    rintro ⟨hnone, hother⟩
    rcases List.mem_cons.1 hname with rfl | hname
    · exact hindex hother
    · obtain ⟨file, hfile, rfl⟩ : ∃ file ∈ sheets, file.1 = name := by
        simpa [sheets, eq_comm] using hname
      obtain ⟨content, hcontent⟩ :=
        FileTree.mem_namesBelow.1 (h.assets.mem_namesBelow.2 ⟨file, hfile, rfl⟩)
      exact hstays (hcontent ▸ Option.some_ne_none _) hnone
  · cases hcopy

/-- **When the starter site can be built**, with any library and in whatever order. -/
theorem At.build_iff (h : At d l) (minify : Bool) (runtime : Runtime) :
    (∃ d' summary, Site.build d (settings l minify) none runtime = (d', .ok summary) ∧
        d'.tree.content? (l ++ ["dist"] ++ ["index.html"]) =
          some (document (⟨minify⟩ : Minifier runtime.library)).toUTF8) ↔
      CanHold d l "dist" outputs := by
  obtain ⟨rendered, hrendered, hdocuments⟩ := renderAll h minify runtime
  rw [Site.build, hrendered]
  constructor
  · rintro ⟨d', summary, hok, -⟩
    exact canHold_of_deliver h hdocuments hok
  · intro hold
    exact deliver h hold runtime hdocuments

end Starter

end StaticSite
