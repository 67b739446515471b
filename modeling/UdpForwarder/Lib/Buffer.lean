import Mathlib.Data.List.Basic

/-! Buffers as lists: reads and writes at an offset, and buffers made of blocks of one size. -/

namespace UdpForwarder.Buffer

variable {Symbol : Type*}

def slice (buffer : List Symbol) (offset count : Nat) : List Symbol :=
  (buffer.drop offset).take count

/-- `memcpy` of `bytes` to `buffer + offset`. -/
def blit (buffer : List Symbol) (offset : Nat) (bytes : List Symbol) : List Symbol :=
  buffer.take offset ++ bytes ++ buffer.drop (offset + bytes.length)

def joined (blocks : Nat → List Symbol) (count : Nat) : List Symbol :=
  ((List.range count).map blocks).flatten

@[simp] theorem joined_zero (blocks : Nat → List Symbol) : joined blocks 0 = [] := rfl

theorem joined_succ (blocks : Nat → List Symbol) (count : Nat) :
    joined blocks (count + 1) = joined blocks count ++ blocks count := by
  simp [joined, List.range_succ]

theorem slice_length {buffer : List Symbol} {offset count : Nat}
    (inside : offset + count ≤ buffer.length) : (slice buffer offset count).length = count := by
  simp only [slice, List.length_take, List.length_drop]
  omega

theorem slice_append_right {front : List Symbol} (back : List Symbol) {offset : Nat} (count : Nat)
    (start : offset = front.length) : slice (front ++ back) offset count = back.take count := by
  rw [slice, List.drop_left' start.symm]

theorem slice_append_left {front : List Symbol} (back : List Symbol) {offset count : Nat}
    (inside : offset + count ≤ front.length) :
    slice (front ++ back) offset count = slice front offset count := by
  rw [slice, slice, List.drop_append_of_le_length (by omega),
    List.take_append_of_le_length (by simp; omega)]

theorem slice_getElem (buffer : List Symbol) (offset : Nat) {count i : Nat} (inside : i < count) :
    (slice buffer offset count)[i]? = buffer[offset + i]? := by
  rw [slice, List.getElem?_take_of_lt inside, List.getElem?_drop]

theorem blit_append {front : List Symbol} (back bytes : List Symbol) {offset : Nat}
    (start : offset = front.length) :
    blit (front ++ back) offset bytes = front ++ bytes ++ back.drop bytes.length := by
  rw [blit, List.take_left' start.symm, start, ← List.drop_drop, List.drop_left' rfl]

theorem blit_length {buffer bytes : List Symbol} {offset : Nat}
    (inside : offset + bytes.length ≤ buffer.length) :
    (blit buffer offset bytes).length = buffer.length := by
  simp only [blit, List.length_append, List.length_take, List.length_drop]
  omega

section Blocks

variable {size : Nat} {blocks other : Nat → List Symbol}

theorem joined_length (uniform : ∀ i, (blocks i).length = size) (count : Nat) :
    (joined blocks count).length = count * size := by
  induction count with
  | zero => simp
  | succ count ih => rw [joined_succ, List.length_append, ih, uniform, Nat.succ_mul]

theorem joined_congr {count : Nat} (same : ∀ i, i < count → blocks i = other i) :
    joined blocks count = joined other count := by
  induction count with
  | zero => rfl
  | succ count ih =>
      rw [joined_succ, joined_succ, same count (Nat.lt_succ_self count),
        ih fun i bound => same i (Nat.lt_succ_of_lt bound)]

theorem slice_joined (uniform : ∀ i, (blocks i).length = size) {count i : Nat} (bound : i < count)
    (back : List Symbol) :
    slice (joined blocks count ++ back) (i * size) size = blocks i := by
  induction count generalizing back with
  | zero => omega
  | succ count ih =>
      rw [joined_succ, List.append_assoc]
      by_cases last : i = count
      · subst last
        rw [slice_append_right _ _ (joined_length uniform i).symm, List.take_left' (uniform i)]
      · exact ih (by omega) (blocks count ++ back)

theorem joined_getElem (uniform : ∀ i, (blocks i).length = size) {count i : Nat}
    (inside : i < count * size) :
    (joined blocks count)[i]? = (blocks (i / size))[i % size]? := by
  have positive : 0 < size := Nat.pos_of_mul_pos_left (Nat.zero_lt_of_lt inside)
  have block := slice_joined uniform ((Nat.div_lt_iff_lt_mul positive).mpr inside) []
  calc (joined blocks count)[i]?
    _ = (joined blocks count)[i / size * size + i % size]? := by rw [Nat.div_add_mod']
    _ = (slice (joined blocks count) (i / size * size) size)[i % size]? :=
      (slice_getElem _ _ (Nat.mod_lt i positive)).symm
    _ = (blocks (i / size))[i % size]? := by rw [← block, List.append_nil]

theorem joined_slice (buffer : List Symbol) {count : Nat} (inside : count * size ≤ buffer.length) :
    joined (fun i => slice buffer (i * size) size) count = buffer.take (count * size) := by
  induction count with
  | zero => simp
  | succ count ih =>
      rw [Nat.succ_mul] at inside
      rw [joined_succ, ih (by omega), Nat.succ_mul, slice, List.take_add]

theorem take_joined (uniform : ∀ i, (blocks i).length = size) {few count : Nat}
    (bound : few ≤ count) : (joined blocks count).take (few * size) = joined blocks few := by
  induction count with
  | zero =>
      have none : few = 0 := by omega
      simp [none]
  | succ count ih =>
      by_cases all : few = count + 1
      · rw [all, List.take_of_length_le (Nat.le_of_eq (joined_length uniform (count + 1)))]
      · have fits : few * size ≤ (joined blocks count).length := by
          rw [joined_length uniform]
          exact Nat.mul_le_mul_right size (by omega)
        rw [joined_succ, List.take_append_of_le_length fits, ih (by omega)]

theorem slice_take (buffer : List Symbol) {offset count kept : Nat}
    (inside : offset + count ≤ kept) :
    slice (buffer.take kept) offset count = slice buffer offset count := by
  rw [slice, slice, List.drop_take, List.take_take, Nat.min_eq_left (by omega)]

theorem take_eq_iff_slices {first second : List Symbol} {count : Nat}
    (inside : count * size ≤ first.length) (inside' : count * size ≤ second.length) :
    first.take (count * size) = second.take (count * size) ↔
      ∀ i, i < count → slice first (i * size) size = slice second (i * size) size := by
  constructor
  · intro same i bound
    have early : i * size + size ≤ count * size := by
      calc i * size + size
        _ = (i + 1) * size := (Nat.succ_mul i size).symm
        _ ≤ count * size := Nat.mul_le_mul_right size bound
    rw [← slice_take first early, same, slice_take second early]
  · intro same
    rw [← joined_slice first inside, ← joined_slice second inside']
    exact joined_congr same

/-- A loop that writes block `i` at its place, given the blocks before it, fills the buffer
with the blocks one after the other. -/
theorem fill_loop (uniform : ∀ i, (blocks i).length = size) (first count : Nat)
    (body : List Symbol → Nat → List Symbol)
    (writes : ∀ i back, first ≤ i → i < first + count →
      body (joined blocks i ++ back) i = blit (joined blocks i ++ back) (i * size) (blocks i))
    (back : List Symbol) :
    (List.range' first count).foldl body (joined blocks first ++ back) =
      joined blocks (first + count) ++ back.drop (count * size) := by
  induction count with
  | zero => simp
  | succ count ih =>
      have earlier := ih fun i rest low high => writes i rest low (by omega)
      have last := writes (first + count) (back.drop (count * size)) (by omega) (by omega)
      rw [List.range'_concat, List.foldl_append, earlier, Nat.one_mul, List.foldl_cons,
        List.foldl_nil, last, blit_append _ _ (joined_length uniform _).symm, ← joined_succ,
        List.drop_drop, uniform, Nat.succ_mul, Nat.add_assoc]

end Blocks

/-- A loop that combines symbol after symbol with the next entry of a table, and fails at the end
of the table. -/
theorem mapM_zipIdx_getElem {Entry Result : Type*} (combine : Symbol → Entry → Result)
    (table : List Entry) (symbols : List Symbol) {start : Nat} (inside : start ≤ table.length) :
    ((symbols.zipIdx start).mapM fun symbol => table[symbol.2]?.map (combine symbol.1 ·)) =
      if start + symbols.length ≤ table.length then
        some (List.zipWith combine symbols (table.drop start))
      else none := by
  induction symbols generalizing start with
  | nil => simp [inside]
  | cons first rest ih =>
      have size : start + (first :: rest).length = start + 1 + rest.length := by
        rw [List.length_cons]
        omega
      rw [List.zipIdx_cons, List.mapM_cons, size]
      by_cases early : start < table.length
      · rw [List.getElem?_eq_getElem early, ih (Nat.succ_le_of_lt early),
          List.drop_eq_getElem_cons early]
        split <;> rfl
      · have long : ¬ start + 1 + rest.length ≤ table.length := by omega
        rw [List.getElem?_eq_none (Nat.le_of_not_lt early), if_neg long]
        rfl

end UdpForwarder.Buffer
