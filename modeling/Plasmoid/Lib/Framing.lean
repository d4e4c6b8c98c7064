import Mathlib.Data.List.Basic
import Mathlib.Tactic

/-!
# Items on a stream

A reader takes one item off the front of its input, or finds none there.  Items
that delimit themselves can be written one after the other: the reader finds
all of them again, in order, and a cut item at the end is not found but left
over.
-/

namespace Framing

variable {α β : Type}

/-- What takes one item off the front of the input, and leaves less of it. -/
structure Reader (α β : Type) where
  read : List β → Option (α × List β)
  shorter : ∀ {input a rest}, read input = some (a, rest) →
    rest.length < input.length

namespace Reader

@[simp] theorem read_nil (r : Reader α β) : r.read [] = none := by
  cases h : r.read [] with
  | none => rfl
  | some out =>
    have hlt := r.shorter h
    simp at hlt

/-- Every item of the input, up to the first place where none is found. -/
def readAll (r : Reader α β) (input : List β) : List α :=
  match h : r.read input with
  | none => []
  | some (a, rest) =>
    have := r.shorter h
    a :: r.readAll rest
termination_by input.length

variable {r : Reader α β} {input rest item : List β} {a : α}

theorem readAll_of_none (h : r.read input = none) : r.readAll input = [] := by
  rw [readAll]
  split
  · rfl
  · rename_i heq
    rw [h] at heq
    cases heq

theorem readAll_of_read (h : r.read input = some (a, rest)) :
    r.readAll input = a :: r.readAll rest := by
  rw [readAll]
  split
  · rename_i heq
    rw [h] at heq
    cases heq
  · rename_i heq
    rw [h] at heq
    cases heq
    rfl

@[simp] theorem readAll_nil : r.readAll [] = [] := readAll_of_none r.read_nil

variable (r) in
/-- The item stands for `a` whatever follows it, and no proper prefix of it
stands for anything. -/
structure Delimits (a : α) (item : List β) : Prop where
  whole : ∀ rest, r.read (item ++ rest) = some (a, rest)
  cut : ∀ k < item.length, r.read (item.take k) = none

variable (r) in
/-- Items that delimit themselves, one after the other. -/
inductive Whole : List β → Prop where
  | nil : Whole []
  | cons {a : α} {item rest : List β} (item_whole : r.Delimits a item)
      (rest_whole : Whole rest) : Whole (item ++ rest)

theorem Delimits.readAll_eq (h : r.Delimits a item) : r.readAll item = [a] := by
  have hread := h.whole []
  rw [List.append_nil] at hread
  rw [readAll_of_read hread, readAll_nil]

theorem Delimits.readAll_take (h : r.Delimits a item) {k : Nat}
    (hk : k < item.length) : r.readAll (item.take k) = [] :=
  readAll_of_none (h.cut k hk)

/-- One more item at the end. -/
theorem Whole.append (h : r.Whole input) (hitem : r.Delimits a item) :
    r.Whole (input ++ item) := by
  induction h with
  | nil =>
    have hone := Whole.cons hitem .nil
    rw [List.append_nil] at hone
    exact hone
  | cons hfirst _ ih =>
    rw [List.append_assoc]
    exact .cons hfirst ih

/-- One item less in front. -/
theorem Whole.of_read (h : r.Whole input) (hread : r.read input = some (a, rest)) :
    r.Whole rest := by
  cases h with
  | nil =>
    rw [read_nil] at hread
    cases hread
  | cons hfirst hrest =>
    rw [hfirst.whole] at hread
    cases hread
    exact hrest

/-- What follows whole items is read after them. -/
theorem Whole.readAll_append (h : r.Whole input) (more : List β) :
    r.readAll (input ++ more) = r.readAll input ++ r.readAll more := by
  induction h with
  | nil => rw [readAll_nil, List.nil_append, List.nil_append]
  | cons hfirst _ ih =>
    rw [List.append_assoc, readAll_of_read (hfirst.whole _),
      readAll_of_read (hfirst.whole _), ih, List.cons_append]

/-! ## What is left over -/

/-- The input at the first place where no item is found. -/
def leftover (r : Reader α β) (input : List β) : List β :=
  match h : r.read input with
  | none => input
  | some (_, rest) =>
    have := r.shorter h
    r.leftover rest
termination_by input.length

theorem leftover_of_none (h : r.read input = none) : r.leftover input = input := by
  rw [leftover]
  split
  · rfl
  · rename_i heq
    rw [h] at heq
    cases heq

theorem leftover_of_read (h : r.read input = some (a, rest)) :
    r.leftover input = r.leftover rest := by
  rw [leftover]
  split
  · rename_i heq
    rw [h] at heq
    cases heq
  · rename_i heq
    rw [h] at heq
    cases heq
    rfl

/-- Items one after the other, cut somewhere.  The whole ones are found, and of
the next one its first part is left over. -/
theorem readAll_cut {as : List α} {items : List (List β)}
    (h : List.Forall₂ r.Delimits as items) (k : ℕ) :
    ∃ n, n ≤ items.length ∧ (items.take n).flatten.length ≤ k ∧
      (∀ item ∈ items[n]?, k < (items.take n).flatten.length + item.length) ∧
      r.readAll (items.flatten.take k) = as.take n ∧
      r.leftover (items.flatten.take k) =
        (items.flatten.take k).drop (items.take n).flatten.length ∧
      ∀ item ∈ items[n]?, r.leftover (items.flatten.take k) =
        item.take (k - (items.take n).flatten.length) := by
  induction h generalizing k with
  | nil =>
    refine ⟨0, le_rfl, Nat.zero_le k, fun item hitem => ?_, ?_, ?_, fun item hitem => ?_⟩
    · cases hitem
    · simp
    · simp [leftover_of_none]
    · cases hitem
  | @cons a item as items ha _ ih =>
    rw [List.flatten_cons]
    by_cases hk : k < item.length
    · -- Not even the first item is whole.
      have htake : (item ++ items.flatten).take k = item.take k :=
        List.take_append_of_le_length hk.le
      refine ⟨0, Nat.zero_le _, Nat.zero_le k, fun x hx => ?_, ?_, ?_, fun x hx => ?_⟩
      · obtain rfl : item = x := by simpa using hx
        simpa using hk
      · rw [htake, ha.readAll_take hk]
        rfl
      · rw [htake, leftover_of_none (ha.cut k hk)]
        rfl
      · obtain rfl : item = x := by simpa using hx
        rw [htake, leftover_of_none (ha.cut k hk)]
        rfl
    · rw [Nat.not_lt] at hk
      have htake : (item ++ items.flatten).take k =
          item ++ items.flatten.take (k - item.length) := by
        rw [List.take_append, List.take_of_length_le hk]
      obtain ⟨n, hn, hlength, hnext, hread, hrest, hleft⟩ := ih (k - item.length)
      have hfirst : ((item :: items).take (n + 1)).flatten.length =
          item.length + (items.take n).flatten.length := by
        rw [List.take_succ_cons, List.flatten_cons, List.length_append]
      refine ⟨n + 1, Nat.succ_le_succ hn, ?_, fun x hx => ?_, ?_, ?_, fun x hx => ?_⟩
      · rw [hfirst]
        omega
      · have hlt := hnext x hx
        rw [hfirst]
        omega
      · rw [htake, readAll_of_read (ha.whole _), hread]
        rfl
      · rw [htake, leftover_of_read (ha.whole _), hrest, hfirst, ← List.drop_drop,
          List.drop_left]
      · rw [htake, leftover_of_read (ha.whole _), hleft x hx, hfirst]
        congr 1
        omega

end Reader

end Framing
