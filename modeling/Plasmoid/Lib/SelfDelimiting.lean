import Mathlib.Algebra.Order.Group.Nat
import Mathlib.Tactic

/-!
# Codes that end by themselves

A code writes a value as bytes, and reads it back off the front of any input.
So values can be written one after the other with nothing in between.

Numbers are written in groups of seven bits, the lowest group first, and every
byte but the last has its high bit set.  Pairs and lists are written part by
part, a list with its length in front.  Byte strings are written either with
their length in front or, when the length is fixed, as they are.
-/

namespace SelfDelimiting

/-- A way to write values as bytes that end by themselves. -/
structure Code (α : Type) where
  encode : α → List UInt8
  decode : List UInt8 → Option (α × List UInt8)
  decode_encode : ∀ a rest, decode (encode a ++ rest) = some (a, rest)

namespace Code

variable {α β : Type}

/-! ## Numbers -/

/-- A number in groups of seven bits. -/
def groups (n : ℕ) : List UInt8 :=
  if n < 128 then [.ofNat n] else .ofNat (n % 128 + 128) :: groups (n / 128)
termination_by n
decreasing_by omega

/-- The number at the front, and what follows it. -/
def readGroups : List UInt8 → Option (ℕ × List UInt8)
  | [] => none
  | b :: rest =>
    if b.toNat < 128 then some (b.toNat, rest)
    else (readGroups rest).map fun x => (b.toNat - 128 + 128 * x.1, x.2)

theorem toNat_byte {n : ℕ} (h : n < 256) : (UInt8.ofNat n).toNat = n := by
  rw [UInt8.toNat_ofNat']
  omega

theorem readGroups_groups (n : ℕ) (rest : List UInt8) :
    readGroups (groups n ++ rest) = some (n, rest) := by
  induction n using Nat.strongRecOn with
  | ind n ih =>
    rw [groups]
    split
    · rename_i hsmall
      rw [List.singleton_append, readGroups, toNat_byte (by omega), if_pos hsmall]
    · rename_i hlarge
      have hbyte := toNat_byte (n := n % 128 + 128) (by omega)
      rw [List.cons_append, readGroups, hbyte, if_neg (by omega),
        ih (n / 128) (by omega)]
      simp only [Option.map_some, Option.some.injEq, Prod.mk.injEq, and_true]
      omega

def number : Code ℕ where
  encode := groups
  decode := readGroups
  decode_encode := readGroups_groups

/-- A small number takes one byte. -/
theorem length_number {n : ℕ} (h : n < 128) : (number.encode n).length = 1 := by
  show (groups n).length = 1
  rw [groups, if_pos h]
  rfl

/-! ## Values of other types -/

/-- Write a value by way of another one that determines it. -/
def via (c : Code β) (f : α → β) (g : β → α) (hinv : ∀ a, g (f a) = a) : Code α where
  encode a := c.encode (f a)
  decode bytes := (c.decode bytes).map fun x => (g x.1, x.2)
  decode_encode a rest := by
    rw [c.decode_encode, Option.map_some, hinv]

/-- Write the parts of a pair one after the other. -/
def pair (c : Code α) (d : Code β) : Code (α × β) where
  encode x := c.encode x.1 ++ d.encode x.2
  decode bytes := (c.decode bytes).bind fun x =>
    (d.decode x.2).map fun y => ((x.1, y.1), y.2)
  decode_encode x rest := by
    rw [List.append_assoc, c.decode_encode, Option.bind_some, d.decode_encode]
    rfl

theorem length_pair (c : Code α) (d : Code β) (a : α) (b : β) :
    ((c.pair d).encode (a, b)).length =
      (c.encode a).length + (d.encode b).length :=
  List.length_append

/-! ## Lists -/

/-- Read a given number of values. -/
def readMany (c : Code α) : ℕ → List UInt8 → Option (List α × List UInt8)
  | 0, bytes => some ([], bytes)
  | n + 1, bytes => (c.decode bytes).bind fun x =>
    (c.readMany n x.2).map fun y => (x.1 :: y.1, y.2)

theorem readMany_flatMap (c : Code α) (l : List α) (rest : List UInt8) :
    c.readMany l.length (l.flatMap c.encode ++ rest) = some (l, rest) := by
  induction l with
  | nil => rfl
  | cons a l ih =>
    rw [List.length_cons, readMany, List.flatMap_cons, List.append_assoc,
      c.decode_encode, Option.bind_some, ih]
    rfl

/-- Write the length of a list and then its elements. -/
def list (c : Code α) : Code (List α) where
  encode l := number.encode l.length ++ l.flatMap c.encode
  decode bytes := (number.decode bytes).bind fun x => c.readMany x.1 x.2
  decode_encode l rest := by
    rw [List.append_assoc, number.decode_encode, Option.bind_some]
    exact c.readMany_flatMap l rest

theorem length_list_singleton (c : Code α) (a : α) :
    (c.list.encode [a]).length = 1 + (c.encode a).length := by
  show (number.encode 1 ++ [a].flatMap c.encode).length = _
  rw [List.length_append, length_number (by decide), List.flatMap_singleton]

/-! ## Byte strings -/

/-- Write the number of the bytes and then the bytes. -/
def sized (f : α → List UInt8) (g : List UInt8 → Option α)
    (hinv : ∀ a, g (f a) = some a) : Code α where
  encode a := number.encode (f a).length ++ f a
  decode bytes := (number.decode bytes).bind fun x =>
    (g (x.2.take x.1)).map fun a => (a, x.2.drop x.1)
  decode_encode a rest := by
    rw [List.append_assoc, number.decode_encode, Option.bind_some]
    dsimp only
    rw [List.take_left, List.drop_left, hinv]
    rfl

theorem length_sized (f : α → List UInt8) (g : List UInt8 → Option α)
    (hinv : ∀ a, g (f a) = some a) (a : α) :
    ((sized f g hinv).encode a).length =
      (number.encode (f a).length).length + (f a).length :=
  List.length_append

/-- Write bytes that are always equally many. -/
def fixed (n : ℕ) (f : α → List UInt8) (g : List UInt8 → Option α)
    (hlength : ∀ a, (f a).length = n) (hinv : ∀ a, g (f a) = some a) : Code α where
  encode := f
  decode bytes := (g (bytes.take n)).map fun a => (a, bytes.drop n)
  decode_encode a rest := by
    rw [← hlength a, List.take_left, List.drop_left, hinv]
    rfl

end Code

/-! ## Numbers of a fixed width -/

/-- A number in `n` bytes, the highest first. -/
def toBytes : ℕ → ℕ → List UInt8
  | 0, _ => []
  | n + 1, k => toBytes n (k / 256) ++ [.ofNat k]

def ofBytes (bytes : List UInt8) : ℕ :=
  bytes.foldl (fun k b => k * 256 + b.toNat) 0

@[simp] theorem length_toBytes (n k : ℕ) : (toBytes n k).length = n := by
  induction n generalizing k with
  | zero => rfl
  | succ n ih => simp [toBytes, ih]

theorem ofBytes_toBytes {n k : ℕ} (h : k < 256 ^ n) : ofBytes (toBytes n k) = k := by
  induction n generalizing k with
  | zero =>
    rw [pow_zero] at h
    obtain rfl : k = 0 := by omega
    rfl
  | succ n ih =>
    have hhigh : k / 256 < 256 ^ n := by
      rw [pow_succ] at h
      exact Nat.div_lt_of_lt_mul (by omega)
    have hread := ih hhigh
    rw [ofBytes] at hread
    rw [toBytes, ofBytes, List.foldl_append, hread]
    show k / 256 * 256 + (UInt8.ofNat k).toNat = k
    rw [UInt8.toNat_ofNat']
    omega

end SelfDelimiting
