import StaticSite.Site.Settings
import StaticSite.Toml.Document
import StaticSite.Toml.Written

/-!
# The settings file

Settings are kept in a file with a table for building and a table for serving. What the file does
not mention has its default value, and what no setting is called must not be there. In place of a
table may stand a list of the values of its settings in their order, of which the last ones may be
missing.

`Settings.ofText?` reads such a file, and `Settings.toText` writes one.
-/

namespace StaticSite

open Toml

/-- The text of every item of a list, if all are texts. -/
def textsOf? : List Value → Option (List String)
  | [] => some []
  | .text s :: vs => (textsOf? vs).map (s :: ·)
  | _ :: _ => none

/-- A number that a port can have. -/
def portOf? (n : Int) : Option Nat := if 0 ≤ n ∧ n < 65536 then some n.toNat else none

namespace BuildSettings

/-- The settings with one of them set by its name in the file. -/
def put? (b : BuildSettings) : String → Value → Option BuildSettings
  | "root", .text s => some { b with root? := some ⟨s⟩ }
  | "pages", .text s => some { b with pages := ⟨s⟩ }
  | "components", .text s => some { b with components := ⟨s⟩ }
  | "assets", .text s => some { b with assets := ⟨s⟩ }
  | "output", .text s => some { b with output := ⟨s⟩ }
  | "extension", .text s => some { b with extension := s }
  | "styles", .list items => (textsOf? items).map fun styles => { b with styles }
  | "minify", .truth minify => some { b with minify }
  | "clean", .truth clean => some { b with clean }
  | "copy_assets", .truth copyAssets => some { b with copyAssets }
  | _, _ => none

/-- The names of the settings in their order. -/
def names : List String :=
  ["root", "pages", "components", "assets", "output", "extension", "styles", "minify", "clean",
   "copy_assets"]

/-- The settings with the first ones set to the values of a list. -/
def putAll? (b : BuildSettings) (values : List Value) : Option BuildSettings :=
  (names.zip values).foldlM (fun b (name, v) => b.put? name v) b

/-- The table for building. -/
def toText (b : BuildSettings) : String :=
  let root := match b.root? with
    | some p => assignment "root" (quoteText p.text)
    | none => ""
  "[build]\n" ++ root ++
    assignment "pages" (quoteText b.pages.text) ++
    assignment "components" (quoteText b.components.text) ++
    assignment "assets" (quoteText b.assets.text) ++
    assignment "output" (quoteText b.output.text) ++
    assignment "extension" (quoteText b.extension) ++
    assignment "styles" (quoteTexts b.styles) ++
    assignment "minify" (quoteTruth b.minify) ++
    assignment "clean" (quoteTruth b.clean) ++
    assignment "copy_assets" (quoteTruth b.copyAssets)

end BuildSettings

namespace ServeSettings

/-- The settings with one of them set by its name in the file. -/
def put? (s : ServeSettings) : String → Value → Option ServeSettings
  | "interface", .text interface => some { s with interface }
  | "port", .integer n => (portOf? n).map fun port => { s with port }
  | "reload_port", .integer n => (portOf? n).map fun reloadPort => { s with reloadPort }
  | "watch", .truth watch => some { s with watch }
  | "debounce_ms", .integer n => if 0 ≤ n then some { s with debounce := n.toNat } else none
  | _, _ => none

/-- The names of the settings in their order. -/
def names : List String := ["interface", "port", "reload_port", "watch", "debounce_ms"]

/-- The settings with the first ones set to the values of a list. -/
def putAll? (s : ServeSettings) (values : List Value) : Option ServeSettings :=
  (names.zip values).foldlM (fun s (name, v) => s.put? name v) s

/-- The table for serving. -/
def toText (s : ServeSettings) : String :=
  let number (n : Nat) := String.ofList (Number.intText n)
  "[serve]\n" ++
    assignment "interface" (quoteText s.interface) ++
    assignment "port" (number s.port) ++
    assignment "reload_port" (number s.reloadPort) ++
    assignment "watch" (quoteTruth s.watch) ++
    assignment "debounce_ms" (number s.debounce)

end ServeSettings

namespace Settings

/-- The settings with what a file says at one place. -/
def put? (s : Settings) : Leaf → Option Settings
  | (["build"], none) => some s
  | (["serve"], none) => some s
  | (["build"], some (.list values)) => (s.build.putAll? values).map fun build => { s with build }
  | (["serve"], some (.list values)) => (s.serve.putAll? values).map fun serve => { s with serve }
  | (["build", name], some v) => (s.build.put? name v).map fun build => { s with build }
  | (["serve", name], some v) => (s.serve.put? name v).map fun serve => { s with serve }
  | _ => none

/-- The settings in a file; `none` if it is no settings file. -/
def ofText? (text : String) : Option Settings :=
  (leaves? text.toList).bind fun leaves => leaves.foldlM put? {}

/-- The file with the settings. -/
def toText (s : Settings) : String := s.build.toText ++ "\n" ++ s.serve.toText

end Settings

end StaticSite
