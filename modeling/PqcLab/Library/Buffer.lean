import Mathlib.Data.List.TakeDrop
import Mathlib.Data.Nat.Bitwise

/-! Buffers that are read and written at offsets, and the 32-bit lengths that stand in front of data. -/

namespace Buffer

section Access

variable {α : Type} (buf : List α) (off : ℕ)

def read (n : ℕ) : List α := (buf.drop off).take n

def write (data : List α) : List α := buf.take off ++ (data ++ buf.drop (off + data.length))

variable {buf off} {data : List α} {n s : ℕ}

theorem read_length (room : off + n ≤ buf.length) : (read buf off n).length = n := by
  rw [read, List.length_take, List.length_drop]
  omega

theorem write_length (room : off + data.length ≤ buf.length) : (write buf off data).length = buf.length := by
  simp only [write, List.length_append, List.length_take, List.length_drop]
  omega

theorem read_add (m : ℕ) : read buf off (m + n) = read buf off m ++ read buf (off + m) n := by
  rw [read, read, read, List.take_add, List.drop_drop]

theorem read_append_left {before after : List α} (inside : s + n ≤ before.length) :
    read (before ++ after) s n = read before s n := by
  rw [read, read, List.drop_append_of_le_length (by omega),
    List.take_append_of_le_length (by rw [List.length_drop]; omega)]

theorem read_append_right {before after : List α} (same : before.length = off) :
    read (before ++ after) (off + s) n = read after s n := by
  rw [read, read, ← same, ← List.drop_drop, List.drop_left]

theorem read_self {whole : List α} (same : whole.length = n) : read whole 0 n = whole := by
  rw [read, List.drop_zero, ← same, List.take_length]

theorem read_write_within (inside : s + n ≤ data.length) (room : off ≤ buf.length) :
    read (write buf off data) (off + s) n = read data s n := by
  have front : (buf.take off).length = off := by
    rw [List.length_take]
    omega
  rw [write, read_append_right front, read_append_left inside]

theorem read_write (room : off ≤ buf.length) : read (write buf off data) off data.length = data :=
  (read_write_within (s := 0) (by omega) room).trans (read_self rfl)

theorem read_written (inside : s + n ≤ data.length) : read (write buf 0 data) s n = read data s n := by
  have within := read_write_within inside (Nat.zero_le buf.length)
  rw [Nat.zero_add] at within
  exact within

theorem read_write_before (before : s + n ≤ off) (room : off ≤ buf.length) :
    read (write buf off data) s n = read buf s n := by
  have front : (buf.take off).length = off := by
    rw [List.length_take]
    omega
  rw [write, read_append_left (by omega), read, read, List.drop_take, List.take_take,
    Nat.min_eq_left (by omega)]

theorem read_write_after (after : off + data.length ≤ s) (room : off ≤ buf.length) :
    read (write buf off data) s n = read buf s n := by
  have front : (buf.take off).length = off := by
    rw [List.length_take]
    omega
  obtain ⟨skip, rfl⟩ := Nat.exists_eq_add_of_le after
  rw [write, Nat.add_assoc, read_append_right front, read_append_right rfl, read, read, List.drop_drop,
    Nat.add_assoc]

theorem drop_write (inside : off + data.length ≤ n) (room : off ≤ buf.length) :
    (write buf off data).drop n = buf.drop n := by
  have front : (buf.take off).length = off := by
    rw [List.length_take]
    omega
  rw [write, List.drop_append, List.drop_append, front, List.drop_eq_nil_of_le (by omega), List.nil_append,
    List.drop_eq_nil_of_le (by omega), List.nil_append, List.drop_drop]
  congr 1
  omega

theorem read_write_longer (long : data.length ≤ n) (room : off ≤ buf.length) :
    read (write buf off data) off n = data ++ read buf (off + data.length) (n - data.length) := by
  obtain ⟨rest, rfl⟩ := Nat.exists_eq_add_of_le long
  rw [read_add, read_write room, read_write_after le_rfl room, Nat.add_sub_cancel_left]

/-! An access outside the buffer has no result. -/

variable (buf off)

def load (n : ℕ) : Option (List α) := if off + n ≤ buf.length then some (read buf off n) else none

def store (data : List α) : Option (List α) :=
  if off + data.length ≤ buf.length then some (write buf off data) else none

variable {buf off}

theorem load_eq (room : off + n ≤ buf.length) : load buf off n = some (read buf off n) := if_pos room

theorem store_eq (room : off + data.length ≤ buf.length) : store buf off data = some (write buf off data) :=
  if_pos room

theorem store_whole (same : data.length = buf.length) : store buf 0 data = some data := by
  rw [store_eq (by omega), write, List.take_zero, List.nil_append, Nat.zero_add, same, List.drop_length,
    List.append_nil]

theorem load_drop (inside : off + n ≤ buf.length) : load (buf.drop off) 0 n = some (read buf off n) := by
  rw [load_eq (by rw [List.length_drop]; omega), read, List.drop_zero, read]

theorem load_eq_some {found : List α} :
    load buf off n = some found ↔ off + n ≤ buf.length ∧ read buf off n = found := by
  rw [load, Option.ite_none_right_eq_some, Option.some.injEq]

theorem store_eq_some {after : List α} :
    store buf off data = some after ↔ off + data.length ≤ buf.length ∧ write buf off data = after := by
  rw [store, Option.ite_none_right_eq_some, Option.some.injEq]

theorem store_length {after : List α} (stored : store buf off data = some after) :
    after.length = buf.length := by
  obtain ⟨room, rfl⟩ := store_eq_some.mp stored
  exact write_length room

end Access

def encodeUint32 (n : ℕ) : List UInt8 :=
  [UInt8.ofNat (n / 2 ^ 24), UInt8.ofNat (n / 2 ^ 16), UInt8.ofNat (n / 2 ^ 8), UInt8.ofNat n]

/-- The number in the first four bytes, those that are missing being zero. -/
def decodeUint32 (buf : List UInt8) : ℕ :=
  (buf.getD 0 0).toNat * 2 ^ 24 + (buf.getD 1 0).toNat * 2 ^ 16 + (buf.getD 2 0).toNat * 2 ^ 8 +
    (buf.getD 3 0).toNat

@[simp] theorem encodeUint32_length (n : ℕ) : (encodeUint32 n).length = 4 := rfl

theorem decodeUint32_lt (buf : List UInt8) : decodeUint32 buf < 2 ^ 32 := by
  have bound (i : ℕ) : (buf.getD i 0).toNat < 256 := (buf.getD i 0).toNat_lt
  have first := bound 0
  have second := bound 1
  have third := bound 2
  have fourth := bound 3
  unfold decodeUint32
  omega

theorem decodeUint32_encodeUint32 {n : ℕ} (small : n < 2 ^ 32) (rest : List UInt8) :
    decodeUint32 (encodeUint32 n ++ rest) = n := by
  simp only [decodeUint32, encodeUint32, List.cons_append, List.getD_cons_zero, List.getD_cons_succ,
    UInt8.toNat_ofNat']
  omega

theorem decodeUint32_of_read {n : ℕ} {buf : List UInt8} (small : n < 2 ^ 32)
    (starts : read buf 0 4 = encodeUint32 n) : decodeUint32 buf = n := by
  have front : buf.take 4 = encodeUint32 n := starts
  rw [← List.take_append_drop 4 buf, front]
  exact decodeUint32_encodeUint32 small _

theorem encodeUint32_decodeUint32 {buf : List UInt8} (enough : 4 ≤ buf.length) :
    encodeUint32 (decodeUint32 buf) = read buf 0 4 := by
  match buf, enough with
  | a :: b :: c :: d :: rest, _ =>
    have aByte := a.toNat_lt
    have bByte := b.toNat_lt
    have cByte := c.toNat_lt
    have dByte := d.toNat_lt
    simp only [encodeUint32, decodeUint32, read, List.drop_zero, List.getD_cons_zero, List.getD_cons_succ,
      List.take_succ_cons, List.take_zero, List.cons.injEq, and_true, ← UInt8.toNat_inj, UInt8.toNat_ofNat']
    omega

theorem decodeUint32_framed {data rest : List UInt8} (small : data.length < 2 ^ 32) :
    decodeUint32 (encodeUint32 data.length ++ (data ++ rest)) = data.length :=
  decodeUint32_encodeUint32 small _

theorem read_framed (data rest : List UInt8) :
    read (encodeUint32 data.length ++ (data ++ rest)) 4 data.length = data := by
  have front : (encodeUint32 data.length).length = 4 := encodeUint32_length _
  rw [← Nat.add_zero 4, read_append_right front, read_append_left (Nat.zero_add _).le, read_self rfl]

theorem read_framed_rest (data rest : List UInt8) :
    read (encodeUint32 data.length ++ (data ++ rest)) (4 + data.length) rest.length = rest := by
  have front : (encodeUint32 data.length).length = 4 := encodeUint32_length _
  rw [read_append_right front, ← Nat.add_zero data.length, read_append_right rfl, read_self rfl]

theorem framed_of_long {buf : List UInt8} {m n : ℕ} (starts : decodeUint32 buf = m)
    (whole : buf.length = 4 + m + n) :
    buf = encodeUint32 m ++ (read buf 4 m ++ read buf (4 + m) n) := by
  have all : read buf 0 (4 + (m + n)) = buf := read_self (by omega)
  rw [read_add, Nat.zero_add, read_add, ← encodeUint32_decodeUint32 (by omega), starts] at all
  exact all.symm

end Buffer
