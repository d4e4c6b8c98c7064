import Plasmoid.CallEnvelope

/-!
# Envelopes from anybody

Whoever can send a tagged message writes its length field.  The receive loop
adds four to it, in 32 bits, compares the sum with the length of the payload and
slices the payload twice.  Here these steps are taken one by one: an operation
that overflows wraps around, or panics if overflow checks are on, and a slice
out of bounds panics.  `openEnvelope` is what they come to.
-/

namespace Plasmoid

/-- Addition of two `usize` values of 32 bits.  `none` is a panic. -/
def addUsize (overflowChecks : Bool) (a b : ℕ) : Option ℕ :=
  if a + b < 2 ^ 32 then some (a + b)
  else if overflowChecks then none
  else some ((a + b) % 2 ^ 32)

/-- The slice `bytes[lo..hi]`. -/
def sliceBytes (bytes : List UInt8) (lo hi : ℕ) : Option (List UInt8) :=
  if lo ≤ hi ∧ hi ≤ bytes.length then some ((bytes.drop lo).take (hi - lo))
  else none

/-- The slice `bytes[lo..]`. -/
def sliceFrom (bytes : List UInt8) (lo : ℕ) : Option (List UInt8) :=
  if lo ≤ bytes.length then some (bytes.drop lo) else none

/-- The receive loop on the payload of a tagged message, step by step. -/
def openEnvelopeSteps (overflowChecks : Bool) (payload : List UInt8) :
    OpenedEnvelope :=
  if payload.length < 4 then .skip
  else
    match sliceBytes payload 0 4 with
    | none => .trap
    | some lenBytes =>
      let pidLen := u32OfLe lenBytes
      match addUsize overflowChecks 4 pidLen with
      | none => .trap
      | some total =>
        if payload.length < total then .skip
        else
          match (addUsize overflowChecks 4 pidLen).bind (sliceBytes payload 4) with
          | none => .trap
          | some pidBytes =>
            match String.fromUTF8? ⟨pidBytes.toArray⟩ with
            | none => .skip
            | some pidStr =>
              match (addUsize overflowChecks 4 pidLen).bind (sliceFrom payload) with
              | none => .trap
              | some request => .request pidStr request

/-- No string and no vector on the target is longer than `isize::MAX`. -/
def FitsTarget (bytes : List UInt8) : Prop := bytes.length < 2 ^ 31

instance (bytes : List UInt8) : Decidable (FitsTarget bytes) :=
  inferInstanceAs (Decidable (_ < _))

theorem u32OfLe_lt {bytes : List UInt8} (h : bytes.length ≤ 4) :
    u32OfLe bytes < 2 ^ 32 := by
  have hbound : ∀ l : List UInt8, u32OfLe l < 256 ^ l.length := by
    intro l
    induction l with
    | nil => decide
    | cons b l ih =>
      have := b.toNat_lt
      rw [u32OfLe, List.length_cons, pow_succ]
      omega
  calc u32OfLe bytes < 256 ^ bytes.length := hbound bytes
    _ ≤ 256 ^ 4 := Nat.pow_le_pow_right (by decide) h
    _ = 2 ^ 32 := by decide

theorem addUsize_of_lt {overflowChecks : Bool} {a b : ℕ} (h : a + b < 2 ^ 32) :
    addUsize overflowChecks a b = some (a + b) :=
  if_pos h

/-- A sum that does not fit panics, or it is smaller than either summand. -/
theorem addUsize_of_le (overflowChecks : Bool) {a b : ℕ} (ha : a < 2 ^ 32)
    (hb : b < 2 ^ 32) (h : 2 ^ 32 ≤ a + b) :
    addUsize overflowChecks a b = none ∨
      ∃ total < a, addUsize overflowChecks a b = some total := by
  rw [addUsize, if_neg (by omega)]
  cases overflowChecks with
  | true => exact .inl rfl
  | false => exact .inr ⟨(a + b) % 2 ^ 32, by omega, rfl⟩

/-- The steps of the receive loop, with or without overflow checks. -/
theorem openEnvelopeSteps_eq (overflowChecks : Bool) (payload : List UInt8) :
    openEnvelopeSteps overflowChecks payload = openEnvelope payload := by
  unfold openEnvelopeSteps openEnvelope
  by_cases hshort : payload.length < 4
  · rw [if_pos hshort, if_pos hshort]
  · have hheader : sliceBytes payload 0 4 = some (payload.take 4) := by
      rw [sliceBytes, if_pos ⟨Nat.zero_le 4, Nat.not_lt.1 hshort⟩]
      rfl
    have hlt : u32OfLe (payload.take 4) < 2 ^ 32 :=
      u32OfLe_lt (List.length_take_le _ _)
    rw [if_neg hshort, if_neg hshort, hheader]
    dsimp only
    by_cases hfits : 4 + u32OfLe (payload.take 4) < 2 ^ 32
    · rw [addUsize_of_lt hfits, if_neg (Nat.not_le.2 hfits)]
      dsimp only [Option.bind_some]
      by_cases hlen : payload.length < 4 + u32OfLe (payload.take 4)
      · rw [if_pos hlen, if_pos hlen]
      · have hpid : sliceBytes payload 4 (4 + u32OfLe (payload.take 4)) =
            some ((payload.drop 4).take (u32OfLe (payload.take 4))) := by
          rw [sliceBytes, if_pos ⟨Nat.le_add_right _ _, Nat.not_lt.1 hlen⟩,
            Nat.add_sub_cancel_left]
        have hrest : sliceFrom payload (4 + u32OfLe (payload.take 4)) =
            some (payload.drop (4 + u32OfLe (payload.take 4))) :=
          if_pos (Nat.not_lt.1 hlen)
        cases hstr : String.fromUTF8?
            ⟨((payload.drop 4).take (u32OfLe (payload.take 4))).toArray⟩ with
        | none => simp only [if_neg hlen, hpid, hstr]
        | some pidStr => simp only [if_neg hlen, hpid, hrest, hstr]
    · rw [if_pos (Nat.not_lt.1 hfits)]
      obtain hnone | ⟨total, htotal, hsum⟩ :=
        addUsize_of_le overflowChecks (by decide) hlt (Nat.not_lt.1 hfits)
      · rw [hnone]
      · -- The sum wraps around, so the check passes and the slice ends before it starts.
        have hslice : sliceBytes payload 4 total = none :=
          if_neg fun h => by omega
        rw [hsum]
        dsimp only [Option.bind_some]
        rw [if_neg (by omega), hslice]

/-- Where an envelope makes the receive loop trap. -/
theorem openEnvelope_ne_trap_iff (payload : List UInt8) :
    openEnvelope payload ≠ .trap ↔
      payload.length < 4 ∨ u32OfLe (payload.take 4) < 2 ^ 32 - 4 := by
  unfold openEnvelope
  dsimp only
  split
  · rename_i hshort
    simp [hshort]
  · rename_i hshort
    split
    · rename_i hbig
      refine iff_of_false (fun h => h rfl) ?_
      omega
    · rename_i hfits
      refine iff_of_true ?_ (.inr (by omega))
      split
      · simp
      · split
        · simp
        · simp

/-- The receive loop takes apart what a caller sends, and it does not trap on an
envelope if and only if that is too short for a length field, or the field is
below `2 ^ 32 - 4`. -/
theorem envelope_traps_iff (overflowChecks : Bool) :
    (∀ payload, openEnvelopeSteps overflowChecks payload ≠ .trap ↔
      payload.length < 4 ∨ u32OfLe (payload.take 4) < 2 ^ 32 - 4) ∧
    ∀ pidStr request, FitsTarget (utf8Bytes pidStr) →
      openEnvelopeSteps overflowChecks (callEnvelope pidStr request) =
        .request pidStr request := by
  refine ⟨fun payload => ?_, fun pidStr request hfits => ?_⟩
  · rw [openEnvelopeSteps_eq]
    exact openEnvelope_ne_trap_iff payload
  · rw [openEnvelopeSteps_eq]
    refine openEnvelope_callEnvelope request ?_
    unfold FitsTarget at hfits
    omega

/-- Four bytes bring the server down, however it was built. -/
theorem full_length_field_traps :
    (∀ overflowChecks,
      openEnvelopeSteps overflowChecks [255, 255, 255, 255] = .trap) ∧
    ¬ ∀ overflowChecks payload, openEnvelopeSteps overflowChecks payload ≠ .trap := by
  have htraps : ∀ overflowChecks,
      openEnvelopeSteps overflowChecks [255, 255, 255, 255] = .trap := by
    intro overflowChecks
    rw [openEnvelopeSteps_eq]
    rfl
  exact ⟨htraps, fun h => h true _ (htraps true)⟩

end Plasmoid
