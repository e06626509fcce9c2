import Mathlib.Data.Vector.Basic
import Mathlib.Logic.Equiv.Fin.Basic

namespace Wire

variable {α β γ : Type}

/-- Values of a type as byte strings of one width. Reading undoes writing and accepts nothing else. -/
structure Layout (α : Type) where
  width : Nat
  write : α → List UInt8
  read : List UInt8 → Option α
  length_write : ∀ a, (write a).length = width
  read_eq_some : ∀ bytes a, read bytes = some a ↔ write a = bytes

/-- The value at the front of a byte string, whatever follows it. -/
def Layout.load (l : Layout α) (bytes : List UInt8) : Option α := l.read (bytes.take l.width)

/-- Every byte string of the width is the writing of a value. -/
def Layout.Total (l : Layout α) : Prop := ∀ bytes, bytes.length = l.width → ∃ a, l.write a = bytes

section Layout
variable {f : Layout α} {g : Layout β} {a a' : α} {bytes rest : List UInt8}

theorem Layout.read_write (l : Layout α) (a : α) : l.read (l.write a) = some a := (l.read_eq_some _ a).mpr rfl

theorem Layout.write_injective (l : Layout α) : Function.Injective l.write := by
  intro a a' same
  have again := l.read_write a
  rw [same, l.read_write] at again
  exact (Option.some.inj again).symm

theorem Layout.load_eq_some (l : Layout α) : l.load bytes = some a ↔ ∃ rest, bytes = l.write a ++ rest := by
  unfold Layout.load
  rw [l.read_eq_some]
  constructor
  · intro front
    exact ⟨bytes.drop l.width, by rw [front, List.take_append_drop]⟩
  · rintro ⟨rest, rfl⟩
    exact (List.take_left' (l.length_write a)).symm

theorem Layout.width_le_of_load (l : Layout α) (loads : l.load bytes = some a) : l.width ≤ bytes.length := by
  obtain ⟨rest, rfl⟩ := l.load_eq_some.mp loads
  rw [List.length_append, l.length_write]
  exact Nat.le_add_right _ _

/-- A total layout reads whatever is long enough. -/
theorem Layout.Total.load_isSome (total : f.Total) : (f.load bytes).isSome ↔ f.width ≤ bytes.length := by
  constructor
  · intro loads
    obtain ⟨a, loads⟩ := Option.isSome_iff_exists.mp loads
    exact f.width_le_of_load loads
  · intro long
    obtain ⟨a, front⟩ := total (bytes.take f.width) (List.length_take_of_le long)
    rw [Option.isSome_iff_exists]
    exact ⟨a, (f.read_eq_some _ a).mpr front⟩

def byte : Layout UInt8 where
  width := 1
  write b := [b]
  read
    | [b] => some b
    | _ => none
  length_write _ := rfl
  read_eq_some bytes b := by
    split
    · rw [Option.some.injEq, List.cons.injEq, eq_comm]
      simp only [and_true]
    · rename_i other
      simp only [reduceCtorEq, false_iff]
      exact fun is => other b is.symm

theorem byte_write (b : UInt8) : byte.write b = [b] := rfl

theorem byte_total : byte.Total := by
  intro bytes one
  obtain ⟨b, rfl⟩ := List.length_eq_one_iff.mp one
  exact ⟨b, rfl⟩

/-- A flag is the byte 0 or the byte 1. -/
def flag : Layout Bool where
  width := 1
  write b := [if b then 1 else 0]
  read
    | [b] => if b = 0 then some false else if b = 1 then some true else none
    | _ => none
  length_write _ := rfl
  read_eq_some bytes raised := by
    split
    · rename_i b
      cases raised <;> grind
    · rename_i other
      simp only [reduceCtorEq, false_iff]
      exact fun is => other _ is.symm

theorem flag_write (raised : Bool) : flag.write raised = [if raised then 1 else 0] := rfl

theorem flag_load : (flag.load bytes).isSome ↔ ∃ b, bytes.head? = some b ∧ b ≤ 1 := by
  cases bytes with
  | nil => exact iff_of_false Bool.noConfusion fun ⟨_, first, _⟩ => by cases first
  | cons b rest =>
    change (if b = 0 then some false else if b = 1 then some true else none).isSome ↔ _
    simp only [List.head?_cons, Option.some.injEq, exists_eq_left']
    grind

def unit : Layout Unit where
  width := 0
  write _ := []
  read
    | [] => some ()
    | _ => none
  length_write _ := rfl
  read_eq_some bytes _ := by
    cases bytes with
    | nil => exact iff_of_true rfl rfl
    | cons => exact iff_of_false (fun none => by cases none) fun nil => by cases nil

theorem unit_total : unit.Total := by
  intro bytes none
  exact ⟨(), (List.eq_nil_of_length_eq_zero none).symm⟩

/-- One value after another. -/
def Layout.pair (f : Layout α) (g : Layout β) : Layout (α × β) where
  width := f.width + g.width
  write p := f.write p.1 ++ g.write p.2
  read bytes := (f.read (bytes.take f.width)).bind fun a => (g.read (bytes.drop f.width)).map fun b => (a, b)
  length_write p := by rw [List.length_append, f.length_write, g.length_write]
  read_eq_some bytes p := by
    obtain ⟨a, b⟩ := p
    simp only [Option.bind_eq_some_iff, Option.map_eq_some_iff, f.read_eq_some, g.read_eq_some, Prod.mk.injEq]
    constructor
    · rintro ⟨a, front, b, back, rfl, rfl⟩
      rw [front, back, List.take_append_drop]
    · rintro rfl
      exact ⟨a, (List.take_left' (f.length_write a)).symm, b, (List.drop_left' (f.length_write a)).symm, rfl, rfl⟩

theorem Layout.pair_write (p : α × β) : (f.pair g).write p = f.write p.1 ++ g.write p.2 := rfl

theorem Layout.Total.pair (first : f.Total) (second : g.Total) : (f.pair g).Total := by
  intro bytes long
  change bytes.length = f.width + g.width at long
  obtain ⟨a, front⟩ := first (bytes.take f.width) (List.length_take_of_le (by omega))
  obtain ⟨b, back⟩ := second (bytes.drop f.width) (by rw [List.length_drop]; omega)
  exact ⟨(a, b), (congrArg₂ (· ++ ·) front back).trans (List.take_append_drop _ _)⟩

/-- A pair is read by reading its parts, each where the other leaves it. -/
theorem Layout.load_pair : ((f.pair g).load bytes).isSome ↔
    (f.load bytes).isSome ∧ (g.load (bytes.drop f.width)).isSome := by
  simp only [Option.isSome_iff_exists, Layout.load_eq_some]
  constructor
  · rintro ⟨⟨a, b⟩, rest, rfl⟩
    refine ⟨⟨a, g.write b ++ rest, List.append_assoc _ _ _⟩, b, rest, ?_⟩
    exact (congrArg (List.drop f.width) (List.append_assoc _ _ _)).trans (List.drop_left' (f.length_write a))
  · rintro ⟨⟨a, back, rfl⟩, b, rest, later⟩
    rw [List.drop_left' (f.length_write a)] at later
    exact ⟨(a, b), rest, by rw [later, ← List.append_assoc]; rfl⟩

/-- The same bytes for another type of values. -/
def Layout.map (f : Layout α) (e : α ≃ β) : Layout β where
  width := f.width
  write b := f.write (e.symm b)
  read bytes := (f.read bytes).map e
  length_write b := f.length_write (e.symm b)
  read_eq_some bytes b := by
    simp only [Option.map_eq_some_iff, f.read_eq_some]
    constructor
    · rintro ⟨a, rfl, rfl⟩
      rw [e.symm_apply_apply]
    · intro written
      exact ⟨e.symm b, written, e.apply_symm_apply b⟩

theorem Layout.map_write (e : α ≃ β) (b : β) : (f.map e).write b = f.write (e.symm b) := rfl

theorem Layout.Total.map (total : f.Total) (e : α ≃ β) : (f.map e).Total := by
  intro bytes long
  obtain ⟨a, written⟩ := total bytes long
  exact ⟨e a, (congrArg f.write (e.symm_apply_apply a)).trans written⟩

theorem Layout.load_map (e : α ≃ β) : ((f.map e).load bytes).isSome ↔ (f.load bytes).isSome := by
  change ((f.load bytes).map e).isSome ↔ _
  rw [Option.isSome_map]

end Layout

section Arrays

/-- A vector as its head and its tail. -/
def consEquiv (α : Type) (n : Nat) : α × List.Vector α n ≃ List.Vector α (n + 1) where
  toFun p := p.1 ::ᵥ p.2
  invFun v := (v.head, v.tail)
  left_inv _ := by simp only [List.Vector.head_cons, List.Vector.tail_cons]
  right_inv v := v.cons_head_tail

def nilEquiv (α : Type) : Unit ≃ List.Vector α 0 where
  toFun _ := .nil
  invFun _ := ()
  left_inv _ := rfl
  right_inv v := v.eq_nil.symm

/-- `n` values in a row. -/
def array (f : Layout α) : (n : Nat) → Layout (List.Vector α n)
  | 0 => unit.map (nilEquiv α)
  | n + 1 => (f.pair (array f n)).map (consEquiv α n)

variable {f : Layout α} {n : Nat}

theorem array_width : (array f n).width = n * f.width := by
  induction n with
  | zero => exact (Nat.zero_mul _).symm
  | succ n ih =>
    change f.width + (array f n).width = _
    rw [ih, Nat.succ_mul, Nat.add_comm]

theorem array_total (total : f.Total) : (array f n).Total := by
  induction n with
  | zero => exact unit_total.map _
  | succ n ih => exact (total.pair ih).map _

theorem array_write (v : List.Vector α n) : (array f n).write v = v.toList.flatMap f.write := by
  induction n with
  | zero => rw [v.eq_nil]; rfl
  | succ n ih =>
    obtain ⟨a, w, rfl⟩ := v.exists_eq_cons
    have tail := ih w
    change f.write _ ++ (array f n).write _ = _
    simp only [consEquiv, Equiv.symm, Equiv.coe_fn_mk, List.Vector.head_cons, List.Vector.tail_cons, tail,
      List.Vector.toList_cons, List.flatMap_cons]

end Arrays

section Words

def byteEquiv : UInt8 ≃ Fin 256 := ⟨UInt8.toFin, UInt8.ofFin, fun _ => rfl, fun _ => rfl⟩

/-- The digit of least weight and the others. -/
def digitEquiv (n : Nat) : UInt8 × Fin (256 ^ n) ≃ Fin (256 ^ (n + 1)) :=
  ((byteEquiv.prodCongr (Equiv.refl _)).trans (Equiv.prodComm _ _)).trans finProdFinEquiv

/-- A number below `256 ^ n` as `n` bytes, the least significant first. -/
def word : (n : Nat) → Layout (Fin (256 ^ n))
  | 0 => unit.map ⟨fun _ => 0, fun _ => (), fun _ => rfl, fun x => (Fin.fin_one_eq_zero x).symm⟩
  | n + 1 => (byte.pair (word n)).map (digitEquiv n)

theorem word_total (n : Nat) : (word n).Total := by
  induction n with
  | zero => exact unit_total.map _
  | succ n ih => exact (byte_total.pair ih).map _

def u32 : Layout UInt32 := (word 4).map ⟨UInt32.ofFin, UInt32.toFin, fun _ => rfl, fun _ => rfl⟩

def u64 : Layout UInt64 := (word 8).map ⟨UInt64.ofFin, UInt64.toFin, fun _ => rfl, fun _ => rfl⟩

/-- A signed word in two's complement. -/
def i64 : Layout Int64 := u64.map ⟨UInt64.toInt64, Int64.toUInt64, fun _ => rfl, fun _ => rfl⟩

theorem u32_total : u32.Total := (word_total 4).map _

theorem u64_total : u64.Total := (word_total 8).map _

theorem i64_total : i64.Total := u64_total.map _

end Words

/-- A part of a record and the place it is written at. -/
structure Row where
  start : Nat
  bytes : List UInt8

/-- Rows that go from `cursor` to `last`, each beginning where the one before it ends. -/
def Contiguous (cursor last : Nat) : List Row → Prop
  | [] => cursor = last
  | r :: rest => r.start = cursor ∧ Contiguous (cursor + r.bytes.length) last rest

section Rows
variable {front : List UInt8} {cursor last : Nat} {rows : List Row} {r : Row}

theorem Contiguous.length (contiguous : Contiguous cursor last rows) :
    cursor + (rows.flatMap Row.bytes).length = last := by
  induction rows generalizing cursor with
  | nil => exact contiguous
  | cons r rest ih =>
    rw [List.flatMap_cons, List.length_append, ← Nat.add_assoc]
    exact ih contiguous.2

/-- Each row of a contiguous table is found at its own place. -/
theorem Contiguous.slice (contiguous : Contiguous front.length last rows) (member : r ∈ rows) (after : List UInt8) :
    ((front ++ rows.flatMap Row.bytes ++ after).drop r.start).take r.bytes.length = r.bytes := by
  induction rows generalizing front with
  | nil => cases member
  | cons r' rest ih =>
    obtain ⟨start, later⟩ := contiguous
    rcases List.mem_cons.mp member with rfl | member
    · rw [start, List.append_assoc, List.drop_left, List.flatMap_cons, List.append_assoc, List.take_left]
    · rw [List.flatMap_cons, ← List.append_assoc front]
      refine ih ?_ member
      rw [List.length_append]
      exact later

end Rows

/-- Records of several kinds, told apart by a tag of one width in front of each. -/
structure Family (ι : Type) (α : ι → Type) where
  tagWidth : Nat
  tag : ι → List UInt8
  body : ∀ i, Layout (α i)
  length_tag : ∀ i, (tag i).length = tagWidth
  tag_injective : Function.Injective tag

section Family
variable {ι : Type} {α : ι → Type} {s : Family ι α} {i j : ι} {a : α i} {b : α j} {bytes : List UInt8}

def Family.write (s : Family ι α) (i : ι) (a : α i) : List UInt8 := s.tag i ++ (s.body i).write a

/-- A record of the kind that is asked for. -/
def Family.load (s : Family ι α) (i : ι) (bytes : List UInt8) : Option (α i) :=
  if bytes.take s.tagWidth = s.tag i then (s.body i).load (bytes.drop s.tagWidth) else none

theorem Family.load_eq_some (s : Family ι α) :
    s.load i bytes = some a ↔ ∃ rest, bytes = s.write i a ++ rest := by
  unfold Family.load Family.write
  split
  · rename_i tagged
    rw [Layout.load_eq_some]
    refine exists_congr fun rest => ?_
    rw [List.append_assoc, ← tagged]
    constructor
    · intro body
      rw [← body, List.take_append_drop]
    · intro whole
      exact List.append_cancel_left ((List.take_append_drop _ bytes).trans whole)
  · rename_i other
    simp only [reduceCtorEq, false_iff, not_exists]
    rintro rest rfl
    rw [List.append_assoc, ← s.length_tag i, List.take_left] at other
    exact other rfl

theorem Family.load_isSome (s : Family ι α) : (s.load i bytes).isSome ↔
    bytes.take s.tagWidth = s.tag i ∧ ((s.body i).load (bytes.drop s.tagWidth)).isSome := by
  unfold Family.load
  split
  · rename_i tagged
    simp only [tagged, true_and]
  · rename_i other
    simp only [other, Option.isSome_none, Bool.false_eq_true, false_and]

/-- Bytes that load as a record of one kind load as no record of another. -/
theorem Family.kind_unique (first : s.load i bytes = some a) (second : s.load j bytes = some b) : i = j := by
  have front := (s.load_isSome.mp (Option.isSome_of_eq_some first)).1
  have front' := (s.load_isSome.mp (Option.isSome_of_eq_some second)).1
  exact s.tag_injective (front.symm.trans front')

end Family

end Wire
