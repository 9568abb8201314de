/-
SequenceChart/Measure/Font.lean

Measuring with a font.

Fonts are rasterised at whole pixel sizes, so a font size is rounded first,
and is at least one.  A font is loaded when its pixel size is asked for the
first time and kept from then on: an entry of the cache is never replaced or
dropped, and a load that fails leaves the cache as it was.

How fonts are loaded and what they answer is left to a font library.  Loading
works on a state of the library's own, so two loads of one font may end
differently.
-/
import SequenceChart.Measure.Basic

namespace SequenceChart

/-! ### Fonts -/

/-- Where a font comes from. -/
inductive FontFace where
  | bundled
  | file (path : String)
  deriving DecidableEq, Repr

namespace FontFace

/-- A missing or empty path stands for the bundled font. -/
def ofPath? : Option String → FontFace
  | none => bundled
  | some path => if path = "" then bundled else file path

/-- How the face is named where it could not be loaded. -/
def blamed : FontFace → String
  | bundled => "<default font>"
  | file path => path

/-- How the face is named where it was loaded. -/
def loadedName : FontFace → String
  | bundled => "<default>"
  | file path => path

end FontFace

/-- The left and right end of a text's bounding box. -/
structure Extent where
  left : Quantity
  right : Quantity
  deriving DecidableEq

/-- How far a line of a font reaches above and below its baseline. -/
structure LineMetrics where
  ascent : Quantity
  descent : Quantity
  deriving DecidableEq

/-- Why a font does not answer. -/
inductive QueryFailure where
  /-- The font cannot show the text. -/
  | refused (reason : String)
  /-- The answer itself came to grief. -/
  | faulted (fault : Fault)
  deriving DecidableEq

/-- A source of fonts of type `φ`, with a state `ω` of its own. -/
structure FontLibrary (φ ω : Type) where
  load : FontFace → Int → ω → Except String φ × ω
  extent : φ → String → Except QueryFailure Extent
  metrics : φ → Except QueryFailure LineMetrics

/-! ### The cache -/

/-- The fonts loaded so far by pixel size, and the state of their library. -/
structure FontCache (φ ω : Type) where
  fonts : List (Int × φ) := []
  library : ω

namespace FontCache

variable {φ ω : Type}

/-- The font for a pixel size, if there is one. -/
def find? (cache : FontCache φ ω) (pixels : Int) : Option φ :=
  (cache.fonts.find? fun entry => entry.1 = pixels).map Prod.snd

/-- Put a font in place, instead of one of the same pixel size. -/
def insert (cache : FontCache φ ω) (pixels : Int) (font : φ) : FontCache φ ω :=
  { cache with fonts := (cache.fonts.filter fun entry => entry.1 ≠ pixels) ++ [(pixels, font)] }

end FontCache

/-- The pixel size of a font size: the nearest integer, but at least one. -/
def pixelSize (fontSize : Quantity) : Calc Int := do
  let pixels ← fontSize.round
  return max 1 pixels

variable {φ ω : Type}

/-- Load a font that is not in the cache, and keep it. -/
def FontLibrary.loadFont (lib : FontLibrary φ ω) (face : FontFace) (pixels : Int) :
    Run (FontCache φ ω) φ := do
  let cache ← Run.getState
  match lib.load face pixels cache.library with
  | (.error reason, library) =>
    -- a failure is not kept, so the font is tried again the next time
    Run.setState { cache with library := library }
    Run.fail (.diagram (.unmeasurable face.blamed ("font could not be loaded (" ++ reason ++ ")")))
  | (.ok font, library) =>
    Run.notify (.fontLoaded face.loadedName pixels)
    Run.setState ({ cache with library := library }.insert pixels font)
    return font

/-- The font of a face at a font size, from the cache if it is there. -/
def FontLibrary.font (lib : FontLibrary φ ω) (face : FontFace) (fontSize : Quantity) :
    Run (FontCache φ ω) φ := do
  let pixels ← pixelSize fontSize
  let cache ← Run.getState
  match cache.find? pixels with
  | some font => return font
  | none => lib.loadFont face pixels

/-! ### Measuring -/

/-- A font's answer, as an answer about a text. -/
def answer {α : Type} {σ : Type} (text : String) : Except QueryFailure α → Run σ α
  | .ok a => pure a
  | .error (.refused reason) => Run.fail (.diagram (.unmeasurable text reason))
  | .error (.faulted fault) => Run.fail fault

/-- A binary64 quantity, also where the exact one is an integer. -/
def asFloat (q : Quantity) : Calc Quantity :=
  q.toFloat.map Quantity.float

/-- The measurer of a face: the width of the bounding box and the height of a
line, both as binary64 numbers. -/
def Measurer.ofFace (lib : FontLibrary φ ω) (face : FontFace) : Measurer (FontCache φ ω) :=
  fun text fontSize => do
    let font ← lib.font face fontSize
    let extent ← answer text (lib.extent font text)
    let metrics ← answer text (lib.metrics font)
    let width ← extent.right.sub extent.left
    let width ← asFloat width
    let height ← metrics.ascent.add metrics.descent
    let height ← asFloat height
    return { width := width, height := height }

end SequenceChart
