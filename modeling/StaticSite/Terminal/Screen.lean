import StaticSite.Terminal.Layout

/-!
# The screen

While pages are rendered, progress bars stand below everything else, each on a line of its own. A
message erases them and leaves room for them again; the next step of each bar draws it anew.

A `Screen` is what has to be known for that. Its operations answer with what they write.
-/

namespace StaticSite.Terminal

/-- A progress bar. -/
structure Bar where
  /-- what it is about -/
  label : String
  /-- how many steps there are -/
  total : Nat
  /-- how many steps have been made -/
  current : Nat := 0
  deriving DecidableEq, Repr, Inhabited

/-- What is on the screen below the messages. -/
structure Screen where
  /-- the width of the terminal -/
  width : Nat
  /-- the bars, the top one first, if there are any -/
  bars? : Option (List Bar) := none
  /-- how many lines they take up now -/
  lines : Nat := 0
  deriving DecidableEq, Repr, Inhabited

namespace Screen

/-- Lines that are left free. -/
def free (lines : Nat) : String := String.ofList (List.replicate lines '\n')

/-- Writes a message above the bars. -/
def log (s : Screen) (label message : String) : String :=
  let clear := if 0 < s.lines then up s.lines ++ clearBelow else clearRest
  clear ++ coloured label ++ " " ++ shown s.width label message ++ "\n" ++ free s.lines

/-- Erases the bars. They stay known, and a step draws one of them again. -/
def finish (s : Screen) : Screen × String :=
  match s.bars? with
  | none => (s, "")
  | some bars =>
    if s.lines = 0 then (s, "")
    else
      let erase := bars.map fun _ => clearLine ++ down 1
      ({ s with lines := 0 }, up bars.length ++ String.join erase ++ up bars.length)

/-- Erases the bars and forgets them. -/
def drop (s : Screen) : Screen × String :=
  let (s, out) := s.finish
  ({ s with bars? := none }, out)

/-- Puts bars on the screen in place of those that are there. Bars without a step are left out, and
none is shown if there is no more than one step in all. -/
def start (s : Screen) (tasks : List (String × Nat)) : Screen × String :=
  let (s, out) := s.drop
  let tasks := tasks.filter fun (_, total) => 0 < total
  if tasks.foldl (fun n (_, total) => n + total) 0 ≤ 1 then (s, out)
  else
    let bars := tasks.map fun (label, total) => (⟨label, total, 0⟩ : Bar)
    ({ s with bars? := some bars, lines := bars.length }, out ++ free bars.length)

/-- A bar as it is drawn. -/
def draw (width : Nat) (b : Bar) : String :=
  let count := decimal b.current ++ "/" ++ decimal b.total
  let barWidth := barWidth width (labelLength b.label) (Text.byteLength count.toList)
  let filled := min b.current b.total * barWidth / b.total
  coloured b.label ++ " [" ++ String.ofList (List.replicate filled '█') ++
    String.ofList (List.replicate (barWidth - filled) '░') ++ "] " ++ count

/-- A bar makes a step and is drawn anew. -/
def step (s : Screen) (index : Nat) : Screen × String :=
  match s.bars? with
  | none => (s, "")
  | some bars =>
    match bars[index]? with
    | none => (s, "")
    | some bar =>
      let bar := { bar with current := bar.current + 1 }
      let away := bars.length - index
      ({ s with bars? := some (bars.set index bar) },
        up away ++ clearLine ++ draw s.width bar ++ down away ++ "\r")

end Screen

end StaticSite.Terminal
