/-
SequenceChart/Palette.lean

Palettes: the colours of a chart.

A palette needs a background and a foreground; the other five colours refine
it and may be left to be mixed from these two.  A named palette is chosen by
the appearance asked for, or else by the chart's own theme; single colours of
the appearance then override those of the palette.
-/
import SequenceChart.Header
import SequenceChart.Run

namespace SequenceChart

/-- The colours of a drawing.  One that is not set is derived from background and
foreground. -/
structure Palette where
  bg : String := "#FFFFFF"
  fg : String := "#27272A"
  line : Option String := none
  accent : Option String := none
  muted : Option String := none
  surface : Option String := none
  border : Option String := none
  deriving DecidableEq, Repr

instance : Inhabited Palette := ⟨{}⟩

/-- How a chart is to look, as far as it is asked for. -/
structure Appearance where
  bg : Option String := none
  fg : Option String := none
  line : Option String := none
  accent : Option String := none
  muted : Option String := none
  surface : Option String := none
  border : Option String := none
  font : Option String := none
  theme : Option String := none
  transparent : Option Bool := none
  deriving DecidableEq, Repr

namespace Palette

/-! ### Named palettes -/

/-- The palettes that have a name, in order. -/
def named : List (String × Palette) :=
  [("default", {}),
   ("zinc-dark", { bg := "#18181B", fg := "#FAFAFA" }),
   ("nord",
    { bg := "#2e3440", fg := "#d8dee9"
      line := some "#4c566a", accent := some "#88c0d0", muted := some "#616e88" }),
   ("dracula",
    { bg := "#282a36", fg := "#f8f8f2"
      line := some "#6272a4", accent := some "#bd93f9", muted := some "#6272a4" }),
   ("github-light",
    { bg := "#ffffff", fg := "#1f2328"
      line := some "#d1d9e0", accent := some "#0969da", muted := some "#59636e" }),
   ("github-dark",
    { bg := "#0d1117", fg := "#e6edf3"
      line := some "#3d444d", accent := some "#4493f8", muted := some "#9198a1" }),
   ("solarized-light",
    { bg := "#fdf6e3", fg := "#657b83"
      line := some "#93a1a1", accent := some "#268bd2", muted := some "#93a1a1" })]

/-- Lower case, as far as it can lead to an ASCII letter: `A` to `Z`, and the
Kelvin sign, which is a `K`. -/
def lowerChar (c : Char) : Char :=
  if c.toNat = 0x212A then 'k' else c.toLower

/-- A theme as it is looked up: trimmed and in lower case. -/
def themeKey (theme : String) : String :=
  String.ofList ((Text.trimChars theme.toList).map lowerChar)

/-- The palette of a theme, by its name in any case and between any blanks. -/
def find? (theme : String) : Option Palette :=
  named.lookup (themeKey theme)

/-! ### Choosing -/

/-- The first text unless it is missing or empty, else the second. -/
def prefer (first second : Option String) : Option String :=
  match first.bind nonempty? with
  | some s => some s
  | none => second

/-- The theme that counts, if any. -/
def themeOf? (appearance : Appearance) (header : Header) : Option String :=
  (prefer appearance.theme header.theme).bind nonempty?

/-- The palette of a theme; an unknown one is reported and ignored. -/
def ofTheme {σ : Type} : Option String → Run σ Palette
  | none => return {}
  | some theme =>
    match find? theme with
    | some palette => return palette
    | none => do
      Run.notify (.unknownTheme theme)
      return {}

/-- The colours of the appearance where it has them, else those of the palette. -/
def override (palette : Palette) (appearance : Appearance) : Palette :=
  { bg := (appearance.bg.bind nonempty?).getD palette.bg
    fg := (appearance.fg.bind nonempty?).getD palette.fg
    line := prefer appearance.line palette.line
    accent := prefer appearance.accent palette.accent
    muted := prefer appearance.muted palette.muted
    surface := prefer appearance.surface palette.surface
    border := prefer appearance.border palette.border }

/-- The palette of a chart with a given header. -/
def resolve {σ : Type} (appearance : Appearance) (header : Header) : Run σ Palette := do
  let palette ← ofTheme (themeOf? appearance header)
  return palette.override appearance

end Palette

end SequenceChart
