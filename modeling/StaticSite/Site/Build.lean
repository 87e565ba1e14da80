import StaticSite.Site.Pages

/-!
# Building a site

A build prepares the site, plans its documents and renders all of them before it writes the first
one. Then it empties the output directory, if it is asked to, writes the documents and copies the
assets. Pages are rendered in parallel, and so are documents written and assets copied: which of
several failures is reported, and what is done by then, depends on the run (`Runtime`).
-/

namespace StaticSite

/-- What a build has done. -/
structure BuildSummary where
  /-- how many components the site has -/
  components : Nat
  /-- how many documents were written -/
  pages : Nat
  /-- how many assets were copied -/
  assets : Nat
  deriving DecidableEq, Repr, Inhabited

namespace Site

/-- A site with its documents, none of them written yet. -/
structure Rendered where
  /-- the site -/
  site : Site
  /-- each document with its place -/
  documents : List (Path × String)

/-- Everything up to the first document written. The disk is only read. -/
def renderAll (d : Disk) (settings : BuildSettings) (reloadPort? : Option Nat)
    (runtime : Runtime := {}) : Except BuildError Rendered := do
  let site ← prepare d settings reloadPort? runtime
  let jobs ← plan d settings runtime
  let documents ← runtime.rendering.collect (fun job => do return (job.output, ← site.render job)) jobs
  return ⟨site, documents⟩

/-- Takes away the output directory, if there is one. -/
def clear (d : Disk) (output : Path) : Disk × Except BuildError Unit :=
  if d.pathExists output then
    match d.removeDirectory output with
    | (d, true) => (d, .ok ())
    | (d, false) => (d, .error (.file output))
  else (d, .ok ())

/-- Writes what was rendered and copies the assets. -/
def deliver (d : Disk) (settings : BuildSettings) (r : Rendered) (runtime : Runtime := {}) :
    Disk × Except BuildError BuildSummary :=
  let (d, cleared) := if settings.clean then clear d settings.output else (d, .ok ())
  match cleared with
  | .error e => (d, .error e)
  | .ok _ =>
    match writePages d r.documents runtime.writing with
    | (d, .error e) => (d, .error e)
    | (d, .ok _) =>
      let (d, copied) :=
        if settings.copyAssets then
          StaticSite.copyAssets d settings.assets settings.output runtime.copying
        else (d, .ok 0)
      match copied with
      | .error e => (d, .error e)
      | .ok assets => (d, .ok ⟨r.site.registry.size, r.documents.length, assets⟩)

/-- Builds a site. With a port, its documents get the reload client for it. -/
def build (d : Disk) (settings : BuildSettings) (reloadPort? : Option Nat) (runtime : Runtime := {}) :
    Disk × Except BuildError BuildSummary :=
  match renderAll d settings reloadPort? runtime with
  | .error e => (d, .error e)
  | .ok rendered => deliver d settings rendered runtime

end Site

end StaticSite
