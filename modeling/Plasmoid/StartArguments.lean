import Plasmoid.Lib.Splitting
import Plasmoid.Spawning

/-!
# The arguments of a `start` function

A spawn hands its component one text, and `parse_wave_args` reads values for
the parameters of `start` from it.  A single string takes the text as it is,
another single parameter takes all of it to the parser, and for several
parameters the text is cut at its first commas.  The parser knows no commas
that belong to a value: what is written out for several parameters is read
back only if no text but the last holds one.

Types, values and the parser of one value belong to the engine.
-/

namespace Plasmoid

/-- `char::is_whitespace`. -/
def isWhitespace (c : Char) : Bool :=
  let n := c.toNat
  (0x09 ≤ n && n ≤ 0x0D) || n == 0x20 || n == 0x85 || n == 0xA0 ||
    n == 0x1680 || (0x2000 ≤ n && n ≤ 0x200A) || n == 0x2028 || n == 0x2029 ||
    n == 0x202F || n == 0x205F || n == 0x3000

/-- `str::trim`. -/
def trim (text : String) : String :=
  String.ofList (Splitting.strip isWhitespace text.toList)

/-- `str::splitn`, at commas. -/
def splitnAtCommas (n : Nat) (text : String) : List String :=
  (Splitting.splitn ',' n text.toList).map String.ofList

/-- What the engine knows of the values a component takes. -/
structure WaveSyntax (Ty Val : Type) where
  isString : Ty → Bool
  /-- `Val::String`. -/
  string : String → Val
  /-- `wasm_wave::from_str`, with the text of its error. -/
  fromStr : Ty → String → Except String Val

namespace WaveSyntax

variable {Ty Val : Type} (wave : WaveSyntax Ty Val)

/-- One value from each piece, up to the first that is refused. -/
def readEach : List Ty → List String → Except String (List Val)
  | ty :: types, part :: parts =>
    match wave.fromStr ty (trim part) with
    | .error e => .error ("failed to parse arg '" ++ trim part ++ "': " ++ e)
    | .ok val =>
      match readEach types parts with
      | .error e => .error e
      | .ok vals => .ok (val :: vals)
  | _, _ => .ok []

def parseWaveArgs (initArgs : String) : List Ty → Except String (List Val)
  | [] => .ok []
  | [ty] =>
    if initArgs = "" then
      .error "start function expects 1 argument but none provided"
    -- strings pass through raw, whatever they hold
    else if wave.isString ty then .ok [wave.string initArgs]
    else
      match wave.fromStr ty initArgs with
      | .error e => .error ("failed to parse init args as wasm-wave: " ++ e)
      | .ok val => .ok [val]
  | ty :: next :: more =>
    let types := ty :: next :: more
    let parts := splitnAtCommas types.length initArgs
    if parts.length ≠ types.length then
      .error ("start function expects " ++ toString types.length ++
        " arguments, got " ++ toString parts.length)
    else wave.readEach types parts

/-- A component whose `start` takes parameters of these types. -/
def component (types : List Ty) : ComponentCode where
  instantiates := true
  exportsStart := true
  params := types.length
  parses := fun initArgs => (wave.parseWaveArgs initArgs types).toBool

/-! ## What the arguments mean -/

/-- Each value is read from the piece at its place, as the type at its
place. -/
inductive ReadsEach : List Ty → List String → List Val → Prop where
  | nil : ReadsEach [] [] []
  | cons {ty types part parts val vals}
      (head : wave.fromStr ty (trim part) = .ok val)
      (tail : ReadsEach types parts vals) :
      ReadsEach (ty :: types) (part :: parts) (val :: vals)

/-- What the text stands for. -/
inductive Reads : List Ty → String → List Val → Prop where
  | none (text : String) : Reads [] text []
  | string {ty text} (hstring : wave.isString ty = true) (hne : text ≠ "") :
      Reads [ty] text [wave.string text]
  | one {ty text val} (hstring : wave.isString ty = false) (hne : text ≠ "")
      (hval : wave.fromStr ty text = .ok val) : Reads [ty] text [val]
  | several {types parts vals} (htwo : 2 ≤ types.length)
      (hcommas : ∀ part ∈ parts.dropLast, ',' ∉ part.toList)
      (hvals : wave.ReadsEach types parts vals) :
      Reads types (",".intercalate parts) vals

end WaveSyntax

/-! ## Trimmed pieces -/

theorem isWhitespace_comma : isWhitespace ',' = false := by decide

theorem comma_mem_trim {text : String} :
    ',' ∈ (trim text).toList ↔ ',' ∈ text.toList := by
  rw [trim, String.toList_ofList, Splitting.mem_strip isWhitespace_comma]

theorem length_splitnAtCommas (n : Nat) (text : String) :
    (splitnAtCommas (n + 1) text).length =
      min (n + 1) (text.toList.count ',' + 1) := by
  rw [splitnAtCommas, List.length_map, Splitting.length_splitn]

/-- The pieces hold no comma but the last, and are the text. -/
theorem splitnAtCommas_eq_iff {n : Nat} (hn : 0 < n) {text : String}
    {parts : List String} (hlen : parts.length = n) :
    splitnAtCommas n text = parts ↔
      (∀ part ∈ parts.dropLast, ',' ∉ part.toList) ∧
        ",".intercalate parts = text := by
  have hlists : splitnAtCommas n text = parts ↔
      Splitting.splitn ',' n text.toList = parts.map String.toList := by
    constructor
    · intro h
      rw [← h, splitnAtCommas, List.map_map]
      simp
    · intro h
      rw [splitnAtCommas, h, List.map_map]
      simp
  rw [hlists, Splitting.splitn_eq_iff_of_length hn (by rw [List.length_map, hlen]),
    ← List.map_dropLast, List.forall_mem_map, ← String.toList_inj,
    String.toList_intercalate]
  rfl

namespace WaveSyntax

variable {Ty Val : Type} (wave : WaveSyntax Ty Val) {types : List Ty}
  {parts texts : List String} {text : String} {vals : List Val}

theorem ReadsEach.length_eq {wave : WaveSyntax Ty Val}
    (h : wave.ReadsEach types parts vals) : parts.length = types.length := by
  induction h with
  | nil => rfl
  | cons _ _ ih => rw [List.length_cons, List.length_cons, ih]

theorem readEach_ok_iff (hlen : parts.length = types.length) :
    wave.readEach types parts = .ok vals ↔ wave.ReadsEach types parts vals := by
  induction types generalizing parts vals with
  | nil =>
    obtain rfl := List.length_eq_zero_iff.mp hlen
    constructor
    · intro h
      cases h
      exact .nil
    · intro h
      cases h
      rfl
  | cons ty types ih =>
    cases parts with
    | nil => cases hlen
    | cons part parts =>
      have hrest : parts.length = types.length := Nat.succ_inj.mp hlen
      rw [readEach]
      constructor
      · intro h
        cases hval : wave.fromStr ty (trim part) with
        | error e =>
          rw [hval] at h
          cases h
        | ok val =>
          rw [hval] at h
          cases htail : wave.readEach types parts with
          | error e =>
            rw [htail] at h
            cases h
          | ok tail =>
            rw [htail] at h
            cases h
            exact .cons hval ((ih hrest).mp htail)
      · intro h
        cases h with
        | cons hval htail => rw [hval, (ih hrest).mpr htail]

theorem parseWaveArgs_of_two (h : 2 ≤ types.length) (initArgs : String) :
    wave.parseWaveArgs initArgs types =
      if (splitnAtCommas types.length initArgs).length ≠ types.length then
        .error ("start function expects " ++ toString types.length ++
          " arguments, got " ++
          toString (splitnAtCommas types.length initArgs).length)
      else wave.readEach types (splitnAtCommas types.length initArgs) := by
  match types, h with
  | _ :: _ :: _, _ => rfl

/-- The text of all pieces is read piece by piece. -/
theorem parseWaveArgs_intercalate (h : 2 ≤ types.length)
    (hlen : parts.length = types.length)
    (hcommas : ∀ part ∈ parts.dropLast, ',' ∉ part.toList) :
    wave.parseWaveArgs (",".intercalate parts) types =
      wave.readEach types parts := by
  have hparts : splitnAtCommas types.length (",".intercalate parts) = parts :=
    (splitnAtCommas_eq_iff (by omega) hlen).mpr ⟨hcommas, rfl⟩
  rw [parseWaveArgs_of_two wave h, hparts, if_neg (not_not_intro hlen)]

/-- What is read from several pieces. -/
theorem parseWaveArgs_ok_of_two (h : 2 ≤ types.length)
    (hok : wave.parseWaveArgs text types = .ok vals) :
    wave.Reads types text vals := by
  rw [parseWaveArgs_of_two wave h] at hok
  split at hok
  · cases hok
  · rename_i hlen
    have hlen := not_not.mp hlen
    obtain ⟨hcommas, htext⟩ := (splitnAtCommas_eq_iff (by omega) hlen).mp rfl
    have hread := Reads.several h hcommas ((wave.readEach_ok_iff hlen).mp hok)
    rw [htext] at hread
    exact hread

theorem parseWaveArgs_ok_iff :
    wave.parseWaveArgs text types = .ok vals ↔ wave.Reads types text vals := by
  constructor
  · intro hok
    match types with
    | [] =>
      cases hok
      exact .none text
    | [ty] =>
      rw [parseWaveArgs] at hok
      split at hok
      · cases hok
      · rename_i hne
        split at hok
        · rename_i hstring
          cases hok
          exact .string hstring hne
        · rename_i hstring
          split at hok
          · cases hok
          · rename_i val hval
            cases hok
            exact .one (Bool.eq_false_iff.mpr hstring) hne hval
    | ty :: next :: more =>
      exact wave.parseWaveArgs_ok_of_two (by simp) hok
  · intro h
    cases h with
    | none => rfl
    | string hstring hne => rw [parseWaveArgs, if_neg hne, if_pos hstring]
    | one hstring hne hval =>
      rw [parseWaveArgs, if_neg hne, hstring, if_neg Bool.false_ne_true, hval]
    | several htwo hcommas hvals =>
      rw [wave.parseWaveArgs_intercalate htwo hvals.length_eq hcommas]
      exact (wave.readEach_ok_iff hvals.length_eq).mpr hvals

/-- The component starts on the texts that stand for something. -/
theorem startParticle_ok_iff :
    startParticle (wave.component types) text = .ok () ↔
      ∃ vals, wave.Reads types text vals := by
  have hparse : (wave.parseWaveArgs text types).toBool = true ↔
      ∃ vals, wave.Reads types text vals := by
    cases h : wave.parseWaveArgs text types with
    | error e =>
      constructor
      · intro hfalse
        cases hfalse
      · rintro ⟨vals, hreads⟩
        rw [wave.parseWaveArgs_ok_iff.mpr hreads] at h
        cases h
    | ok vals => exact ⟨fun _ => ⟨vals, wave.parseWaveArgs_ok_iff.mp h⟩, fun _ => rfl⟩
  have hstart : startParticle (wave.component types) text =
      if types.length = 0 ∧ text = "" then .ok ()
      else if (wave.parseWaveArgs text types).toBool then .ok ()
      else .error "arguments do not parse" := rfl
  rw [← hparse, hstart]
  split
  · rename_i hempty
    rw [List.length_eq_zero_iff.mp hempty.1]
    exact iff_of_true rfl rfl
  · split
    · exact iff_of_true rfl ‹_›
    · exact iff_of_false (fun h => by cases h) ‹_›

/-- Through whichever entry point, a spawn succeeds when the table takes the
particle in and the text stands for something. -/
theorem spawnThrough_succeeds_iff (entry : SpawnEntry) (reg : ParticleRegistry)
    (ctx : SpawnContext) (args : SpawnArgs)
    (hcode : ctx.code args.component = wave.component types) :
    (reg.spawnThrough entry ctx args).2 = false ↔
      entry.attached = true ∧ args.component ∈ reg.components ∧
        (reg.spawnIn ctx args).2.toBool = true ∧
        ∃ vals, wave.Reads types args.initArgs vals := by
  rw [ParticleRegistry.spawnThrough_eq]
  cases hattached : entry.attached with
  | false => simp
  | true =>
    rw [if_pos rfl, ParticleRegistry.spawnAndStart, hcode,
      ← wave.startParticle_ok_iff]
    by_cases hcomponent : args.component ∈ reg.components
    · rw [if_neg (not_not_intro hcomponent)]
      obtain ⟨reg', e | pid⟩ := reg.spawnIn ctx args
      · simp [Except.toBool]
      · cases startParticle (wave.component types) args.initArgs with
        | error e => simp [Except.toBool]
        | ok => simp [Except.toBool, hcomponent]
    · rw [if_pos hcomponent]
      simp [Except.toBool, hcomponent]

/-! ## Reading back what was written -/

/-- A parser that takes everything shows which pieces it was given. -/
def everything (Ty : Type) : WaveSyntax Ty String where
  isString := fun _ => false
  string := id
  fromStr := fun _ text => .ok text

theorem readEach_everything (hlen : parts.length = types.length) :
    (everything Ty).readEach types parts = .ok (parts.map trim) := by
  induction types generalizing parts with
  | nil =>
    obtain rfl := List.length_eq_zero_iff.mp hlen
    rfl
  | cons ty types ih =>
    cases parts with
    | nil => cases hlen
    | cons part parts =>
      rw [readEach, ih (Nat.succ_inj.mp hlen)]
      rfl

/-- Pieces that look alike once they are trimmed hold commas at the same
places. -/
theorem free_of_map_trim_eq (h : parts.map trim = texts.map trim)
    (hcommas : ∀ part ∈ parts.dropLast, ',' ∉ part.toList) :
    ∀ written ∈ texts.dropLast, ',' ∉ written.toList := by
  intro written hmem
  have hdrop : parts.dropLast.map trim = texts.dropLast.map trim := by
    rw [List.map_dropLast, List.map_dropLast, h]
  have htrim : trim written ∈ parts.dropLast.map trim :=
    hdrop ▸ List.mem_map_of_mem hmem
  obtain ⟨part, hpart, heq⟩ := List.mem_map.mp htrim
  have hfree := hcommas part hpart
  rw [← comma_mem_trim, heq, comma_mem_trim] at hfree
  exact hfree

theorem written_back_iff (h : 2 ≤ types.length)
    (hlen : texts.length = types.length) :
    (∀ (Val : Type) (wave : WaveSyntax Ty Val),
      wave.parseWaveArgs (",".intercalate texts) types =
        wave.readEach types texts) ↔
      ∀ written ∈ texts.dropLast, ',' ∉ written.toList := by
  constructor
  · intro hall
    have heq := hall String (everything Ty)
    rw [readEach_everything hlen, parseWaveArgs_of_two _ h] at heq
    split at heq
    · cases heq
    · rename_i hparts
      have hparts := not_not.mp hparts
      rw [readEach_everything hparts] at heq
      have hcommas := ((splitnAtCommas_eq_iff (by omega) hparts).mp rfl).1
      exact free_of_map_trim_eq (Except.ok.inj heq) hcommas
  · exact fun hcommas Val wave => wave.parseWaveArgs_intercalate h hlen hcommas

/-- Too few commas for the parameters. -/
theorem parseWaveArgs_too_few (h : 2 ≤ types.length)
    (hfew : text.toList.count ',' + 1 < types.length) :
    wave.parseWaveArgs text types =
      .error ("start function expects " ++ toString types.length ++
        " arguments, got " ++ toString (text.toList.count ',' + 1)) := by
  have hlen : (splitnAtCommas types.length text).length =
      text.toList.count ',' + 1 := by
    obtain ⟨n, hn⟩ := Nat.exists_eq_succ_of_ne_zero (show types.length ≠ 0 by omega)
    rw [hn, Nat.succ_eq_add_one, length_splitnAtCommas]
    omega
  rw [parseWaveArgs_of_two wave h, hlen, if_pos hfew.ne]

/-- The arguments of a `start` function with any parameters: which texts are
read and as what, which spawns succeed, and what can be written for several
parameters. -/
theorem start_arguments_exact (types : List Ty) :
    (∀ (Val : Type) (wave : WaveSyntax Ty Val) (text : String)
      (vals : List Val),
      wave.parseWaveArgs text types = .ok vals ↔ wave.Reads types text vals) ∧
    (∀ (Val : Type) (wave : WaveSyntax Ty Val) (entry : SpawnEntry)
      (reg : ParticleRegistry) (ctx : SpawnContext) (args : SpawnArgs),
      ctx.code args.component = wave.component types →
        ((reg.spawnThrough entry ctx args).2 = false ↔
          entry.attached = true ∧ args.component ∈ reg.components ∧
            (reg.spawnIn ctx args).2.toBool = true ∧
            ∃ vals, wave.Reads types args.initArgs vals)) ∧
    (∀ texts : List String, 2 ≤ types.length → texts.length = types.length →
      ((∀ (Val : Type) (wave : WaveSyntax Ty Val),
        wave.parseWaveArgs (",".intercalate texts) types =
          wave.readEach types texts) ↔
        ∀ written ∈ texts.dropLast, ',' ∉ written.toList)) ∧
    (∀ (Val : Type) (wave : WaveSyntax Ty Val) (text : String),
      text.toList.count ',' + 1 < types.length → 2 ≤ types.length →
        wave.parseWaveArgs text types =
          .error ("start function expects " ++ toString types.length ++
            " arguments, got " ++ toString (text.toList.count ',' + 1))) := by
  refine ⟨?_, ?_, ?_, ?_⟩
  · exact fun Val wave text vals => wave.parseWaveArgs_ok_iff
  · exact fun Val wave => wave.spawnThrough_succeeds_iff
  · exact fun texts h hlen => written_back_iff h hlen
  · exact fun Val wave text hfew h => wave.parseWaveArgs_too_few h hfew

/-- A pair is not read back if its first part holds a comma. -/
theorem start_arguments_exact_pair :
    ¬ ∀ (Val : Type) (wave : WaveSyntax Unit Val),
      wave.parseWaveArgs (",".intercalate ["(1, 2)", "3"]) [(), ()] =
        wave.readEach [(), ()] ["(1, 2)", "3"] := by
  rw [(start_arguments_exact [(), ()]).2.2.1 ["(1, 2)", "3"] (by decide)
    (by decide)]
  decide

end WaveSyntax

end Plasmoid
