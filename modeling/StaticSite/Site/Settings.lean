import StaticSite.Files.Disk
import StaticSite.Pattern.Parse

/-!
# Settings of a site

Where the sources of a site are and how it is built and served. The default values are those of a
site that says nothing. `BuildSettings.resolve` makes the directories absolute: a path that exists is
spelled from the top and without detours, another one is put behind the root as it is.
-/

namespace StaticSite

/-- How a site is built. -/
structure BuildSettings where
  /-- the directory of the project; if not given, the working directory -/
  root? : Option Path := none
  /-- the directory of the pages -/
  pages : Path := ⟨"pages"⟩
  /-- the directory of the components that pages use -/
  components : Path := ⟨"components"⟩
  /-- the directory of style sheets and other files -/
  assets : Path := ⟨"assets"⟩
  /-- the directory that the site is written to -/
  output : Path := ⟨"dist"⟩
  /-- the extension of pages and components, without its dot -/
  extension : String := "vue"
  /-- patterns for the paths of assets that can be used as style sheets -/
  styles : List String := ["\\.css$"]
  /-- whether documents are made smaller -/
  minify : Bool := true
  /-- whether the output directory is emptied before it is written -/
  clean : Bool := false
  /-- whether the assets are copied into the output directory -/
  copyAssets : Bool := true
  deriving DecidableEq, Repr, Inhabited

/-- How a site is served while it is worked on. -/
structure ServeSettings where
  /-- the address to listen at -/
  interface : String := "127.0.0.1"
  /-- the port for documents -/
  port : Nat := 5277
  /-- the port for reload messages -/
  reloadPort : Nat := 5278
  /-- whether a change of the sources builds the site anew -/
  watch : Bool := true
  /-- how long the sources must rest before that, in milliseconds -/
  debounce : Nat := 300
  deriving DecidableEq, Repr, Inhabited

/-- All settings of a site. -/
structure Settings where
  /-- the path of the file that they are read from -/
  file : Path := ⟨""⟩
  /-- how the site is built -/
  build : BuildSettings := {}
  /-- how it is served -/
  serve : ServeSettings := {}
  deriving DecidableEq, Repr, Inhabited

namespace Disk

/-- The absolute form of a path: without detours if something stands there, and else behind the
working directory as it is spelled. -/
def normalize (d : Disk) (p : Path) : Path :=
  match d.resolve? p with
  | some q => q
  | none => if p.isAbsolute then p else (pathOf d.here).join p

end Disk

namespace BuildSettings

/-- The directory of the project. -/
def root (b : BuildSettings) : Path := b.root?.getD ⟨"./"⟩

/-- The patterns for style sheets; `none` if one of them is no pattern. -/
def filters? (b : BuildSettings) : Option (List Pattern) := b.styles.mapM Pattern.parse?

/-- The settings with the root and all directories made absolute. -/
def resolve (d : Disk) (root : Path) (b : BuildSettings) : BuildSettings :=
  let root := d.normalize root
  let place (p : Path) := d.normalize (root.join p)
  { b with
    pages := place b.pages, components := place b.components, assets := place b.assets,
    output := place b.output, root? := some root }

end BuildSettings

end StaticSite
