/-
SequenceChart/Proofs/Measure/Font.lean

The font cache over any run of calls.

A measurer with a font is asked for fonts and for sizes of texts, in any order.
What a single request for a font can do is said once (`FontLibrary.Obtains`):
it is refused, answered from the cache, or answered by loading the font, and
only the last of these changes the entries of the cache, by one behind the
others.  To measure a text leaves the cache as its request for a font does
(`FontStep.state_trace`).  So after a run the cache holds what it held at first
and, behind that, the fonts that were loaded on the way
(`FontCache.Cumulative`).

The library is not trusted.  It may answer every call in another way, fail to
load what it loaded before, and keep a state of its own.  Which loads succeed
is observed at the library itself, by one that takes notes
(`FontLibrary.recording`).
-/
import SequenceChart.Measure.Font
import SequenceChart.Proofs.Number.Rounding
import SequenceChart.Proofs.Run

namespace SequenceChart

variable {φ ω : Type}

/-! ### Pixel sizes -/

/-- The exact value of a quantity; NaN and the infinities have none. -/
def Quantity.value? : Quantity → Option Rat
  | int n => some n
  | float x => Number.toRat? x

/-- The pixel size of a font size: the nearest integer to it, the even one of
two, but at least one. -/
def IsPixelSize (fontSize : Quantity) (pixels : Int) : Prop :=
  ∃ value nearest, fontSize.value? = some value ∧ Number.IsNearestEven value nearest ∧
    pixels = max 1 nearest

theorem IsPixelSize.unique {fontSize : Quantity} {pixels pixels' : Int}
    (h : IsPixelSize fontSize pixels) (h' : IsPixelSize fontSize pixels') : pixels = pixels' := by
  obtain ⟨value, nearest, hvalue, hnearest, rfl⟩ := h
  obtain ⟨value', nearest', hvalue', hnearest', rfl⟩ := h'
  obtain rfl : value = value' := Option.some.inj (hvalue.symm.trans hvalue')
  rw [hnearest.unique hnearest']

theorem IsPixelSize.pos {fontSize : Quantity} {pixels : Int} (h : IsPixelSize fontSize pixels) :
    1 ≤ pixels := by
  obtain ⟨value, nearest, -, -, rfl⟩ := h
  exact Int.le_max_left 1 nearest

/-- An integer is rounded to itself, and a binary64 number by its value. -/
theorem Quantity.round_eq_ok {q : Quantity} {n : Int} :
    q.round = .ok n ↔ ∃ value, q.value? = some value ∧ Number.IsNearestEven value n := by
  cases q with
  | int m =>
      have hself : Number.IsNearestEven m m := ⟨by norm_num, by norm_num⟩
      simp only [round, value?, Except.ok.injEq, Option.some.injEq, exists_eq_left']
      constructor
      · rintro rfl
        exact hself
      · exact hself.unique
  | float x =>
      simp only [round, value?]
      -- NaN and the infinities have no value and are not rounded
      rcases Number.toRat? x with - | value
      · simp
      · simp [Number.roundHalfEven_eq_iff]

/-- The pixel size is the nearest integer, but at least one. -/
theorem pixelSize_eq_ok {fontSize : Quantity} {pixels : Int} :
    pixelSize fontSize = .ok pixels ↔ IsPixelSize fontSize pixels := by
  simp only [pixelSize, bind_eq_ok, Quantity.round_eq_ok, IsPixelSize]
  constructor
  · rintro ⟨nearest, ⟨value, hvalue, hnearest⟩, h⟩
    exact ⟨value, nearest, hvalue, hnearest, (Except.ok.inj h).symm⟩
  · rintro ⟨value, nearest, hvalue, hnearest, rfl⟩
    exact ⟨nearest, ⟨value, hvalue, hnearest⟩, rfl⟩

/-- Only a size without a value has no pixel size. -/
theorem pixelSize_cases (fontSize : Quantity) :
    (fontSize.value? = none ∧ ∃ e, pixelSize fontSize = .error e) ∨
      ∃ pixels, IsPixelSize fontSize pixels := by
  rcases hsize : pixelSize fontSize with e | pixels
  · refine .inl ⟨?_, e, rfl⟩
    rcases hvalue : fontSize.value? with - | value
    · rfl
    · have hpixels : IsPixelSize fontSize (max 1 (Number.roundHalfEven value)) :=
        ⟨value, _, hvalue, Number.isNearestEven_roundHalfEven value, rfl⟩
      rw [pixelSize_eq_ok.mpr hpixels] at hsize
      cases hsize
  · exact .inr ⟨pixels, pixelSize_eq_ok.mp hsize⟩

/-! ### Entries of the cache -/

namespace FontCache

variable {cache cache' : FontCache φ ω} {pixels : Int} {font : φ}

theorem find?_eq_none_iff : cache.find? pixels = none ↔ pixels ∉ cache.fonts.map Prod.fst := by
  rw [find?, Option.map_eq_none_iff, List.find?_eq_none]
  constructor
  · intro h hmem
    obtain ⟨entry, hentry, hkey⟩ := List.mem_map.mp hmem
    exact h entry hentry (by simpa using hkey)
  · intro h entry hentry hkey
    exact h (List.mem_map.mpr ⟨entry, hentry, by simpa using hkey⟩)

/-- Entries behind the others hide none of them. -/
theorem find?_of_append {more : List (Int × φ)} (h : cache'.fonts = cache.fonts ++ more)
    (hfind : cache.find? pixels = some font) : cache'.find? pixels = some font := by
  rw [find?, Option.map_eq_some_iff] at hfind ⊢
  obtain ⟨entry, hentry, hfont⟩ := hfind
  refine ⟨entry, ?_, hfont⟩
  rw [h, List.find?_append, hentry]
  rfl

/-- A font that is put into the cache is found there. -/
theorem find?_concat_self (h : cache.find? pixels = none)
    (h' : cache'.fonts = cache.fonts ++ [(pixels, font)]) :
    cache'.find? pixels = some font := by
  rw [find?, Option.map_eq_none_iff] at h
  rw [find?, h', List.find?_append, h]
  simp

/-- There is nothing to be put aside for a new pixel size. -/
theorem insert_of_find?_eq_none (cache : FontCache φ ω) (h : cache.find? pixels = none) (font : φ) :
    cache.insert pixels font = { cache with fonts := cache.fonts ++ [(pixels, font)] } := by
  have hall : ∀ entry ∈ cache.fonts, decide (entry.1 ≠ pixels) = true := by
    intro entry hentry
    refine decide_eq_true fun hkey => ?_
    exact find?_eq_none_iff.mp h (List.mem_map.mpr ⟨entry, hentry, hkey⟩)
  rw [insert, List.filter_eq_self.mpr hall]

end FontCache

/-! ### A request for a font -/

namespace FontLibrary

variable {lib : FontLibrary φ ω} {face : FontFace} {fontSize : Quantity} {cache : FontCache φ ω}

/-- What a request for a font may do to a cache. -/
inductive Obtains (lib : FontLibrary φ ω) (face : FontFace) (fontSize : Quantity)
    (cache : FontCache φ ω) : Trace (FontCache φ ω) φ → Prop
  /-- The font size cannot be rounded. -/
  | unsized {e} (hsize : fontSize.value? = none) :
      Obtains lib face fontSize cache ⟨[], cache, .error (.arithmetic e)⟩
  | cached {pixels font} (hpixels : IsPixelSize fontSize pixels)
      (hfind : cache.find? pixels = some font) :
      Obtains lib face fontSize cache ⟨[], cache, .ok font⟩
  /-- The library fails; only its own state may be another one. -/
  | unloaded {pixels reason library} (hpixels : IsPixelSize fontSize pixels)
      (hfind : cache.find? pixels = none)
      (hload : lib.load face pixels cache.library = (.error reason, library)) :
      Obtains lib face fontSize cache ⟨[], { cache with library := library },
        .error (.diagram (.unmeasurable face.blamed
          ("font could not be loaded (" ++ reason ++ ")")))⟩
  | loaded {pixels font library} (hpixels : IsPixelSize fontSize pixels)
      (hfind : cache.find? pixels = none)
      (hload : lib.load face pixels cache.library = (.ok font, library)) :
      Obtains lib face fontSize cache ⟨[.noticed (.fontLoaded face.loadedName pixels)],
        { fonts := cache.fonts ++ [(pixels, font)], library := library }, .ok font⟩

/-- Without a pixel size the library is not asked. -/
theorem font_of_unsized {e : ArithmeticError} (he : pixelSize fontSize = .error e) :
    lib.font face fontSize cache = ⟨[], cache, .error (.arithmetic e)⟩ := by
  rw [FontLibrary.font, he]
  rfl

/-- A request whose size can be rounded looks into the cache first. -/
theorem font_of_sized {pixels : Int} (hpixels : IsPixelSize fontSize pixels) :
    lib.font face fontSize cache =
      match cache.find? pixels with
      | some font => ⟨[], cache, .ok font⟩
      | none => lib.loadFont face pixels cache := by
  rw [FontLibrary.font, pixelSize_eq_ok.mpr hpixels]
  show (match cache.find? pixels with
    | some font => (pure font : Run _ φ)
    | none => lib.loadFont face pixels) cache = _
  rcases cache.find? pixels with - | font <;> rfl

/-- A font in the cache is not loaded again. -/
theorem font_of_cached {pixels : Int} {font : φ} (hpixels : IsPixelSize fontSize pixels)
    (hfind : cache.find? pixels = some font) :
    lib.font face fontSize cache = ⟨[], cache, .ok font⟩ := by
  rw [font_of_sized hpixels, hfind]

/-- A font that cannot be loaded leaves the cache as it is. -/
theorem font_of_unloaded {pixels : Int} {reason : String} {library : ω}
    (hpixels : IsPixelSize fontSize pixels) (hfind : cache.find? pixels = none)
    (hload : lib.load face pixels cache.library = (.error reason, library)) :
    lib.font face fontSize cache = ⟨[], { cache with library := library },
      .error (.diagram (.unmeasurable face.blamed
        ("font could not be loaded (" ++ reason ++ ")")))⟩ := by
  rw [font_of_sized hpixels, hfind]
  show lib.loadFont face pixels cache = _
  rw [FontLibrary.loadFont, Run.bind_apply_ok (Run.getState_apply cache), hload]
  rfl

/-- A font that is loaded is put into the cache. -/
theorem font_of_loaded {pixels : Int} {font : φ} {library : ω}
    (hpixels : IsPixelSize fontSize pixels) (hfind : cache.find? pixels = none)
    (hload : lib.load face pixels cache.library = (.ok font, library)) :
    lib.font face fontSize cache = ⟨[.noticed (.fontLoaded face.loadedName pixels)],
      { fonts := cache.fonts ++ [(pixels, font)], library := library }, .ok font⟩ := by
  have hinsert : ({ cache with library := library } : FontCache φ ω).insert pixels font =
      { fonts := cache.fonts ++ [(pixels, font)], library := library } :=
    FontCache.insert_of_find?_eq_none { cache with library := library } hfind font
  rw [font_of_sized hpixels, hfind]
  show lib.loadFont face pixels cache = _
  rw [FontLibrary.loadFont, Run.bind_apply_ok (Run.getState_apply cache), hload, ← hinsert]
  rfl

/-- **A request for a font does one of four things.** -/
theorem obtains_font (lib : FontLibrary φ ω) (face : FontFace) (fontSize : Quantity)
    (cache : FontCache φ ω) :
    lib.Obtains face fontSize cache (lib.font face fontSize cache) := by
  obtain ⟨hsize, e, he⟩ | ⟨pixels, hpixels⟩ := pixelSize_cases fontSize
  · rw [font_of_unsized he]
    exact .unsized hsize
  rcases hfind : cache.find? pixels with - | font
  · rcases hload : lib.load face pixels cache.library with ⟨reason | font, library⟩
    · rw [font_of_unloaded hpixels hfind hload]
      exact .unloaded hpixels hfind hload
    · rw [font_of_loaded hpixels hfind hload]
      exact .loaded hpixels hfind hload
  · rw [font_of_cached hpixels hfind]
    exact .cached hpixels hfind

end FontLibrary

/-! ### Calls -/

/-- What a measurer with a font is asked for. -/
inductive FontCall where
  | font (fontSize : Quantity)
  | measure (text : String) (fontSize : Quantity)

/-- The font size that a call is about. -/
def FontCall.fontSize : FontCall → Quantity
  | font fontSize | measure _ fontSize => fontSize

/-- What a call is answered with. -/
inductive FontAnswer (φ : Type) where
  | font (font : φ)
  | size (size : Size)

/-- Answer a call. -/
def FontCall.run (lib : FontLibrary φ ω) (face : FontFace) :
    FontCall → Run (FontCache φ ω) (FontAnswer φ)
  | font fontSize => do
    let font ← lib.font face fontSize
    return .font font
  | measure text fontSize => do
    let size ← Measurer.ofFace lib face text fontSize
    return .size size

/-- A call with the library and the cache that it meets. -/
structure FontStep (φ ω : Type) where
  library : FontLibrary φ ω
  call : FontCall
  cache : FontCache φ ω

namespace FontStep

variable {face : FontFace} {step : FontStep φ ω}

/-- What a step leaves behind. -/
def trace (face : FontFace) (step : FontStep φ ω) : Trace (FontCache φ ω) (FontAnswer φ) :=
  step.call.run step.library face step.cache

/-- The request for a font that the call starts with, on its own. -/
def request (face : FontFace) (step : FontStep φ ω) : Trace (FontCache φ ω) φ :=
  step.library.font face step.call.fontSize step.cache

/-- Whether there is no font for the call: its size cannot be rounded, or the
font is not in the cache and cannot be loaded. -/
def Fontless (face : FontFace) (step : FontStep φ ω) : Prop :=
  step.call.fontSize.value? = none ∨
    ∃ pixels reason, IsPixelSize step.call.fontSize pixels ∧
      step.cache.find? pixels = none ∧
      (step.library.load face pixels step.cache.library).1 = .error reason

/-! ### A single step -/

/-- Once its font is there, a call leaves the cache alone. -/
theorem state_trace (face : FontFace) (step : FontStep φ ω) :
    (step.trace face).state = (step.request face).state := by
  have hanswer : ∀ {α : Type} (text : String) (r : Except QueryFailure α),
      Run.Still (answer text r : Run (FontCache φ ω) α) := by
    rintro α text ((reason | fault) | a)
    · exact Run.Still.fail _
    · exact Run.Still.fail _
    · exact Run.Still.pure a
  obtain ⟨lib, call, cache⟩ := step
  cases call with
  | font fontSize => exact Run.bind_state_of_still (fun font => Run.Still.pure _) cache
  | measure text fontSize =>
      refine (Run.bind_state_of_still (fun size => Run.Still.pure _) cache).trans ?_
      -- what is asked of the font, and the arithmetic on its answers
      refine Run.bind_state_of_still (fun font => ?_) cache
      refine (hanswer text _).bind fun extent => (hanswer text _).bind fun metrics => ?_
      refine (Run.Still.ofCalc _).bind fun _ => (Run.Still.ofCalc _).bind fun width => ?_
      exact (Run.Still.ofCalc _).bind fun _ => (Run.Still.ofCalc _).bind fun height =>
        Run.Still.pure _

/-- Without a font the call fails as its request does. -/
theorem result_trace_of_error {fault : Fault} (h : (step.request face).result = .error fault) :
    (step.trace face).result = .error fault := by
  obtain ⟨lib, call, cache⟩ := step
  cases call with
  | font fontSize => exact Run.bind_result_error.mpr (.inl h)
  | measure text fontSize =>
      exact Run.bind_result_error.mpr (.inl (Run.bind_result_error.mpr (.inl h)))

/-- A call for a font is answered with the font it requests. -/
theorem result_trace_font {fontSize : Quantity} (hcall : step.call = .font fontSize) {font : φ}
    (h : (step.trace face).result = .ok (.font font)) : (step.request face).result = .ok font := by
  obtain ⟨lib, call, cache⟩ := step
  obtain rfl : call = .font fontSize := hcall
  obtain ⟨font', hfont', h⟩ := Run.bind_result_ok.mp h
  obtain rfl : font' = font := by simpa using h
  exact hfont'

theorem obtains (face : FontFace) (step : FontStep φ ω) :
    step.library.Obtains face step.call.fontSize step.cache (step.request face) :=
  step.library.obtains_font face step.call.fontSize step.cache

/-- A step has no font if its request fails. -/
theorem fontless_iff : step.Fontless face ↔ ∃ fault, (step.request face).result = .error fault := by
  have h := step.obtains face
  -- where there is a font, the two ways of having none are shut
  have hfont : ∀ {pixels : Int}, IsPixelSize step.call.fontSize pixels →
      (step.cache.find? pixels ≠ none ∨
        ∀ reason, (step.library.load face pixels step.cache.library).1 ≠ .error reason) →
      ¬ step.Fontless face := by
    rintro pixels hpixels hpresent (hnone | ⟨pixels', reason, hpixels', hfind, hload⟩)
    · obtain ⟨value, _, hvalue, -, -⟩ := hpixels
      cases hnone.symm.trans hvalue
    · obtain rfl := hpixels.unique hpixels'
      rcases hpresent with hpresent | hpresent
      · exact hpresent hfind
      · exact hpresent reason hload
  generalize step.request face = t at h ⊢
  cases h with
  | unsized hsize => exact ⟨fun _ => ⟨_, rfl⟩, fun _ => .inl hsize⟩
  | cached hpixels hfind =>
      refine ⟨fun h => absurd h (hfont hpixels (.inl (by simp [hfind]))), ?_⟩
      rintro ⟨fault, h⟩
      cases h
  | @unloaded pixels reason library hpixels hfind hload =>
      exact ⟨fun _ => ⟨_, rfl⟩, fun _ => .inr ⟨pixels, reason, hpixels, hfind, by rw [hload]⟩⟩
  | loaded hpixels hfind hload =>
      refine ⟨fun h => absurd h (hfont hpixels (.inr fun reason => by simp [hload])), ?_⟩
      rintro ⟨fault, h⟩
      cases h

/-- Without a font the entries stay as they are. -/
theorem fonts_of_error {fault : Fault} (h : (step.request face).result = .error fault) :
    (step.request face).state.fonts = step.cache.fonts := by
  have hobtains := step.obtains face
  generalize step.request face = t at h hobtains ⊢
  cases hobtains with
  | unsized _ => rfl
  | cached _ _ => rfl
  | unloaded _ _ _ => rfl
  | loaded _ _ _ => cases h

/-- A font that is requested is found in the cache afterwards. -/
theorem find?_of_ok {font : φ} {pixels : Int} (hpixels : IsPixelSize step.call.fontSize pixels)
    (h : (step.request face).result = .ok font) :
    (step.request face).state.find? pixels = some font := by
  have hobtains := step.obtains face
  generalize step.request face = t at h hobtains ⊢
  -- a font comes from the cache, or it is put there when it is loaded
  cases hobtains with
  | unsized _ => cases h
  | cached hpixels' hfind =>
      obtain rfl := Except.ok.inj h
      obtain rfl := hpixels.unique hpixels'
      exact hfind
  | unloaded _ _ _ => cases h
  | loaded hpixels' hfind _ =>
      obtain rfl := Except.ok.inj h
      obtain rfl := hpixels.unique hpixels'
      exact FontCache.find?_concat_self hfind rfl

end FontStep

/-! ### Successful loads -/

/-- The library, which now also takes a note of every font that it loads. -/
def FontLibrary.recording (lib : FontLibrary φ ω) : FontLibrary φ (ω × List (Int × φ)) where
  load face pixels state :=
    match lib.load face pixels state.1 with
    | (.error reason, library) => (.error reason, library, state.2)
    | (.ok font, library) => (.ok font, library, state.2 ++ [(pixels, font)])
  extent := lib.extent
  metrics := lib.metrics

namespace FontStep

variable {face : FontFace}

/-- The step with a library that takes notes, and has none yet. -/
def recording (step : FontStep φ ω) : FontStep φ (ω × List (Int × φ)) :=
  { library := step.library.recording
    call := step.call
    cache := { fonts := step.cache.fonts, library := (step.cache.library, []) } }

/-- The fonts that are loaded in the step, with their pixel sizes. -/
def loads (face : FontFace) (step : FontStep φ ω) : List (Int × φ) :=
  (step.recording.trace face).state.library.2

/-- A step loads no font and keeps the entries, or it loads one that the cache
does not have and puts it behind them. -/
theorem loads_cases (face : FontFace) (step : FontStep φ ω) :
    (step.loads face = [] ∧ (step.request face).state.fonts = step.cache.fonts) ∨
      ∃ pixels font, IsPixelSize step.call.fontSize pixels ∧ step.cache.find? pixels = none ∧
        step.loads face = [(pixels, font)] ∧
        (step.request face).state.fonts = step.cache.fonts ++ [(pixels, font)] := by
  have hloads : step.loads face = (step.library.recording.font face step.call.fontSize
      step.recording.cache).state.library.2 :=
    congrArg (fun cache => cache.library.2) (state_trace face step.recording)
  rw [hloads]
  have hobtains := step.obtains face
  -- the request with notes finds the same entries and loads the same font
  generalize step.request face = t at hobtains ⊢
  cases hobtains with
  | unsized hsize =>
      obtain ⟨-, e, he⟩ | ⟨pixels, value, _, hvalue, -, -⟩ := pixelSize_cases step.call.fontSize
      · refine .inl ⟨?_, rfl⟩
        rw [FontLibrary.font_of_unsized he]
        rfl
      · cases hsize.symm.trans hvalue
  | @cached pixels font hpixels hfind =>
      have hfind' : step.recording.cache.find? pixels = some font := hfind
      refine .inl ⟨?_, rfl⟩
      rw [FontLibrary.font_of_cached hpixels hfind']
      rfl
  | @unloaded pixels reason library hpixels hfind hload =>
      have hfind' : step.recording.cache.find? pixels = none := hfind
      have hload' : step.library.recording.load face pixels step.recording.cache.library =
          (.error reason, library, []) := by
        simp only [FontLibrary.recording, recording, hload]
      refine .inl ⟨?_, rfl⟩
      rw [FontLibrary.font_of_unloaded hpixels hfind' hload']
  | @loaded pixels font library hpixels hfind hload =>
      have hfind' : step.recording.cache.find? pixels = none := hfind
      have hload' : step.library.recording.load face pixels step.recording.cache.library =
          (.ok font, library, [(pixels, font)]) := by
        simp only [FontLibrary.recording, recording, hload, List.nil_append]
      refine .inr ⟨pixels, font, hpixels, hfind, ?_, rfl⟩
      rw [FontLibrary.font_of_loaded hpixels hfind' hload']

/-- The entries after a step are those before it and the fonts it has loaded. -/
theorem fonts_trace (face : FontFace) (step : FontStep φ ω) :
    (step.trace face).state.fonts = step.cache.fonts ++ step.loads face := by
  rw [state_trace]
  obtain ⟨hnone, hfonts⟩ | ⟨pixels, font, -, -, hone, hfonts⟩ := step.loads_cases face
  · rw [hfonts, hnone, List.append_nil]
  · rw [hfonts, hone]

theorem find?_trace (step : FontStep φ ω) (face : FontFace) {pixels : Int} {font : φ}
    (h : step.cache.find? pixels = some font) :
    (step.trace face).state.find? pixels = some font :=
  FontCache.find?_of_append (step.fonts_trace face) h

end FontStep

/-! ### Runs of calls -/

/-- The steps of calls that are made one after the other on one cache. -/
def fontSteps (face : FontFace) :
    FontCache φ ω → List (FontLibrary φ ω × FontCall) → List (FontStep φ ω)
  | _, [] => []
  | cache, (lib, call) :: calls =>
    let step : FontStep φ ω := ⟨lib, call, cache⟩
    step :: fontSteps face (step.trace face).state calls

namespace FontCache

variable {face : FontFace} {cache : FontCache φ ω} {calls : List (FontLibrary φ ω × FontCall)}

/-- The cache that the calls leave behind. -/
def after (face : FontFace) : FontCache φ ω → List (FontLibrary φ ω × FontCall) → FontCache φ ω
  | cache, [] => cache
  | cache, (lib, call) :: calls =>
    let step : FontStep φ ω := ⟨lib, call, cache⟩
    after face (step.trace face).state calls

/-- What calls do to a cache: it grows by the fonts that are loaded. -/
structure Cumulative (face : FontFace) (cache last : FontCache φ ω)
    (steps : List (FontStep φ ω)) : Prop where
  fonts : last.fonts = cache.fonts ++ steps.flatMap (FontStep.loads face)
  kept : ∀ pixels font, cache.find? pixels = some font → last.find? pixels = some font
  /-- No step replaces or drops an entry, nor does any later one. -/
  step_kept : ∀ step ∈ steps, ∀ pixels font, step.cache.find? pixels = some font →
    (step.trace face).state.find? pixels = some font ∧ last.find? pixels = some font
  sized : ∀ entry ∈ steps.flatMap (FontStep.loads face),
    1 ≤ entry.1 ∧ ∃ step ∈ steps, IsPixelSize step.call.fontSize entry.1
  /-- No pixel size is loaded twice, nor one that was there at first. -/
  once : ((steps.flatMap (FontStep.loads face)).map Prod.fst).Nodup
  fresh : ∀ entry ∈ steps.flatMap (FontStep.loads face), cache.find? entry.1 = none
  same : ∀ step ∈ steps, ∀ step' ∈ steps, ∀ fontSize fontSize' pixels font font',
    step.call = .font fontSize → step'.call = .font fontSize' →
    IsPixelSize fontSize pixels → IsPixelSize fontSize' pixels →
    (step.trace face).result = .ok (.font font) → (step'.trace face).result = .ok (.font font') →
    font = font'
  /-- A call fails if there is no font for it, and the entries stay. -/
  fontless : ∀ step ∈ steps, step.Fontless face →
    (∃ fault, (step.trace face).result = .error fault) ∧
      (step.trace face).state.fonts = step.cache.fonts
  obtained : ∀ step ∈ steps, ¬ step.Fontless face →
    ∃ font, (step.request face).result = .ok font
  /-- A call leaves the cache as the request for its font alone does, however
  the rest of the call ends. -/
  measured : ∀ step ∈ steps, (step.trace face).state = (step.request face).state

/-- A run adds to the cache what its steps load, in order. -/
theorem fonts_after (face : FontFace) (cache : FontCache φ ω)
    (calls : List (FontLibrary φ ω × FontCall)) :
    (cache.after face calls).fonts =
      cache.fonts ++ (fontSteps face cache calls).flatMap (FontStep.loads face) := by
  induction calls generalizing cache with
  | nil => simp [after, fontSteps]
  | cons call calls ih =>
      rw [after, fontSteps, ih, FontStep.fonts_trace, List.flatMap_cons, List.append_assoc]

/-- A font stays in the cache for the rest of a run. -/
theorem find?_after {pixels : Int} {font : φ} (h : cache.find? pixels = some font) :
    (cache.after face calls).find? pixels = some font :=
  find?_of_append (fonts_after face cache calls) h

/-- What a step leaves in the cache is there to the end. -/
theorem find?_after_of_step {step : FontStep φ ω} (hstep : step ∈ fontSteps face cache calls)
    {pixels : Int} {font : φ} (h : (step.trace face).state.find? pixels = some font) :
    (cache.after face calls).find? pixels = some font := by
  induction calls generalizing cache with
  | nil => cases hstep
  | cons call calls ih =>
      rw [fontSteps] at hstep
      rw [after]
      rcases List.mem_cons.mp hstep with rfl | hstep
      · exact find?_after h
      · exact ih hstep

/-- The loads of a run are of pixel sizes that the cache does not have, and of
each at most once. -/
theorem fresh_loads (face : FontFace) (cache : FontCache φ ω)
    (calls : List (FontLibrary φ ω × FontCall)) :
    (∀ entry ∈ (fontSteps face cache calls).flatMap (FontStep.loads face),
        cache.find? entry.1 = none) ∧
      (((fontSteps face cache calls).flatMap (FontStep.loads face)).map Prod.fst).Nodup := by
  induction calls generalizing cache with
  | nil => simp [fontSteps]
  | cons call calls ih =>
      let step : FontStep φ ω := ⟨call.1, call.2, cache⟩
      obtain ⟨hfresh, hnodup⟩ := ih (step.trace face).state
      have hsteps : fontSteps face cache (call :: calls) =
          step :: fontSteps face (step.trace face).state calls := rfl
      -- what is not there after the first step was not there before it
      have hbefore : ∀ {pixels : Int}, (step.trace face).state.find? pixels = none →
          cache.find? pixels = none := by
        intro pixels hnone
        rcases hfind : cache.find? pixels with - | font
        · rfl
        · cases hnone.symm.trans (step.find?_trace face hfind)
      rw [hsteps, List.flatMap_cons, List.map_append]
      obtain ⟨hnone, -⟩ | ⟨pixels, font, -, hfind, hone, hfonts⟩ := step.loads_cases face
      · rw [hnone]
        exact ⟨fun entry hentry => hbefore (hfresh entry (by simpa using hentry)), hnodup⟩
      · rw [hone]
        refine ⟨fun entry hentry => ?_, ?_⟩
        · rcases List.mem_append.mp hentry with hentry | hentry
          · obtain rfl := List.mem_singleton.mp hentry
            exact hfind
          · exact hbefore (hfresh entry hentry)
        · -- the font of the first step is in the cache of all later ones
          refine List.nodup_cons.mpr ⟨fun hmem => ?_, hnodup⟩
          obtain ⟨entry, hentry, hkey⟩ := List.mem_map.mp hmem
          have hlater := hfresh entry hentry
          rw [← step.state_trace face] at hfonts
          rw [hkey, find?_concat_self hfind hfonts] at hlater
          cases hlater

/-- **The cache only grows.**  Whatever the library does, a run of calls on any
cache keeps all entries, adds each font that it loads under the pixel size of
one of its calls, loads no pixel size twice, and is left alone by calls that
find no font and by all that follows when a font is found. -/
theorem cumulative_after (face : FontFace) (cache : FontCache φ ω)
    (calls : List (FontLibrary φ ω × FontCall)) :
    Cumulative face cache (cache.after face calls) (fontSteps face cache calls) where
  fonts := fonts_after face cache calls
  kept := fun pixels font => find?_after
  step_kept := by
    intro step hstep pixels font hfind
    have hfind' : (step.trace face).state.find? pixels = some font :=
      step.find?_trace face hfind
    exact ⟨hfind', find?_after_of_step hstep hfind'⟩
  sized := by
    intro entry hentry
    obtain ⟨step, hstep, hentry⟩ := List.mem_flatMap.mp hentry
    obtain ⟨hnone, -⟩ | ⟨pixels, font, hpixels, -, hone, -⟩ := step.loads_cases face
    · rw [hnone] at hentry
      cases hentry
    · rw [hone] at hentry
      obtain rfl := List.mem_singleton.mp hentry
      exact ⟨hpixels.pos, step, hstep, hpixels⟩
  once := (fresh_loads face cache calls).2
  fresh := (fresh_loads face cache calls).1
  same := by
    intro step hstep step' hstep' fontSize fontSize' pixels font font' hcall hcall' hpixels hpixels'
      hfont hfont'
    -- both fonts are what the last cache has for the pixel size
    have hlast : ∀ {step : FontStep φ ω}, step ∈ fontSteps face cache calls →
        ∀ {fontSize font}, step.call = .font fontSize → IsPixelSize fontSize pixels →
        (step.trace face).result = .ok (.font font) →
        (cache.after face calls).find? pixels = some font := by
      intro step hstep fontSize font hcall hpixels hresult
      have hsize : IsPixelSize step.call.fontSize pixels := by rwa [hcall]
      have hfind := FontStep.find?_of_ok hsize (FontStep.result_trace_font hcall hresult)
      rw [← FontStep.state_trace] at hfind
      exact find?_after_of_step hstep hfind
    have h := hlast hstep hcall hpixels hfont
    have h' := hlast hstep' hcall' hpixels' hfont'
    exact Option.some.inj (h.symm.trans h')
  fontless := by
    intro step hstep hnone
    obtain ⟨fault, hfault⟩ := FontStep.fontless_iff.mp hnone
    refine ⟨⟨fault, FontStep.result_trace_of_error hfault⟩, ?_⟩
    rw [FontStep.state_trace]
    exact FontStep.fonts_of_error hfault
  obtained := by
    intro step hstep hsome
    rcases hresult : (step.request face).result with fault | font
    · exact absurd (FontStep.fontless_iff.mpr ⟨fault, hresult⟩) hsome
    · exact ⟨font, rfl⟩
  measured := fun step _ => step.state_trace face

/-- A library that is busy at first, and fonts that show no text: the three
calls for sizes about twelve load one font, and the last one is for a size
below one pixel. -/
example :
    let lib : FontLibrary Nat Nat :=
      { load := fun _ pixels calls =>
          (if calls = 0 then .error "busy" else .ok pixels.toNat, calls + 1)
        extent := fun _ _ => .error (.refused "no glyphs")
        metrics := fun _ => .error (.refused "no metrics") }
    (FontCache.after .bundled { library := 0 }
      [(lib, .font (.float 12.5)), (lib, .measure "A" (.int 12)), (lib, .font (.float 11.6)),
       (lib, .font (.float 0.2))]).fonts = [(12, 12), (1, 1)] := by
  decide +kernel

end FontCache

end SequenceChart
