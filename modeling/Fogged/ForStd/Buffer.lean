import Mathlib.Data.List.TakeDrop
import Fogged.ForStd.Outcome

/-!
# Buffers that are written in place

A buffer is a list of a certain length of which some part is in use. Its operations are
those of a slice or a vector, with their run-time checks: a part that is not inside the
buffer stops the program. `window` is such a part as a value.

The lemmas say what each operation leaves of a window, and that what it does to the front
of the buffer depends on the front alone.
-/

namespace Buffer

variable {α : Type}

/-- `buf[start..stop]`. -/
def window (buf : List α) (start stop : Nat) : List α := (buf.take stop).drop start

/-- `&buf[start..stop]`, with its check. -/
def slice (buf : List α) (start stop : Nat) : Outcome (List α) :=
  if start ≤ stop ∧ stop ≤ buf.length then .ret (window buf start stop) else .panic

/-- `buf` with `data` from `start` on. -/
def overwrite (buf : List α) (start : Nat) (data : List α) : List α :=
  buf.take start ++ data ++ buf.drop (start + data.length)

/-- `buf[start..start + data.len()].copy_from_slice(data)`, with its check. -/
def write (buf : List α) (start : Nat) (data : List α) : Outcome (List α) :=
  if start + data.length ≤ buf.length then .ret (overwrite buf start data) else .panic

/-- `buf.copy_within(start..stop, 0)`, with its check. -/
def copyToFront (buf : List α) (start stop : Nat) : Outcome (List α) :=
  if start ≤ stop ∧ stop ≤ buf.length then .ret (overwrite buf 0 (window buf start stop))
  else .panic

/-- A buffer of `n` times `fill` after a read has put `data` into it. -/
def filled (n : Nat) (fill : α) (data : List α) : List α :=
  data ++ List.replicate (n - data.length) fill

/-- `buf.resize(n, fill)`. -/
def resize (buf : List α) (n : Nat) (fill : α) : List α :=
  buf.take n ++ List.replicate (n - buf.length) fill

variable {buf : List α} {start stop n : Nat}

/-- A window of `n` elements. -/
theorem window_eq_take (buf : List α) (start n : Nat) :
    window buf start (start + n) = (buf.drop start).take n := by
  rw [window, List.drop_take, Nat.add_sub_cancel_left]

/-- A slice inside the buffer. -/
theorem slice_of_le (hstart : start ≤ stop) (hstop : stop ≤ buf.length) :
    slice buf start stop = .ret (window buf start stop) :=
  if_pos ⟨hstart, hstop⟩

/-- `&buf[start..]`. -/
theorem slice_length (h : start ≤ buf.length) :
    slice buf start buf.length = .ret (buf.drop start) := by
  rw [slice_of_le h (Nat.le_refl _), window, List.take_length]

/-- The slice of `n` elements at `start`. -/
theorem slice_add (h : start + n ≤ buf.length) :
    slice buf start (start + n) = .ret ((buf.drop start).take n) := by
  rw [slice_of_le (by omega) h, window_eq_take]

/-- What stands at `start` is the slice from there. -/
theorem slice_of_drop {taken rest : List α} (h : start ≤ buf.length)
    (hdrop : buf.drop start = taken ++ rest) :
    slice buf start (start + taken.length) = .ret taken := by
  have hlen := congrArg List.length hdrop
  rw [List.length_drop, List.length_append] at hlen
  rw [slice_add (by omega), hdrop, List.take_left]

/-- A write inside the buffer. -/
theorem write_of_le {data : List α} (h : start + data.length ≤ buf.length) :
    write buf start data = .ret (overwrite buf start data) :=
  if_pos h

/-- A part of the buffer is moved to its front. -/
theorem copyToFront_of_le (hstart : start ≤ stop) (hstop : stop ≤ buf.length) :
    copyToFront buf start stop = .ret (overwrite buf 0 (window buf start stop)) :=
  if_pos ⟨hstart, hstop⟩

/-! ## Lengths -/

theorem length_window (start : Nat) (h : stop ≤ buf.length) :
    (window buf start stop).length = stop - start := by
  simp [window, h]

/-- A write does not change the length. -/
theorem length_overwrite {data : List α} (h : start + data.length ≤ buf.length) :
    (overwrite buf start data).length = buf.length := by
  simp [overwrite]
  omega

theorem length_resize (buf : List α) (n : Nat) (fill : α) : (resize buf n fill).length = n := by
  simp [resize]
  omega

theorem length_filled {data : List α} (h : data.length ≤ n) (fill : α) :
    (filled n fill data).length = n := by
  simp [filled]
  omega

/-! ## Windows -/

/-- A shorter window is the end of a longer one. -/
theorem window_add (buf : List α) (start n stop : Nat) :
    window buf (start + n) stop = (window buf start stop).drop n := by
  rw [window, window, List.drop_drop]

@[simp] theorem window_self (buf : List α) (n : Nat) : window buf n n = [] := by
  simp [window]

/-- What lies behind the written part stays. -/
theorem window_overwrite {data : List α} {k : Nat} (hk : start + data.length ≤ k)
    (h : start + data.length ≤ buf.length) :
    window (overwrite buf start data) k stop = window buf k stop := by
  have hlength : (buf.take start ++ data).length = start + data.length := by
    simp
    omega
  have hdrop : (overwrite buf start data).drop k = buf.drop k := by
    rw [overwrite, List.drop_append, hlength, List.drop_eq_nil_of_le (by omega), List.nil_append,
      List.drop_drop]
    congr 1
    omega
  rw [window, window, List.drop_take, List.drop_take, hdrop]

/-- Data that is written at the end of a window makes it longer. -/
theorem window_overwrite_append {data : List α} (hstart : start ≤ stop) (hstop : stop ≤ buf.length)
    (hn : n ≤ data.length) :
    window (overwrite buf stop data) start (stop + n) = window buf start stop ++ data.take n := by
  have htake : (overwrite buf stop data).take (stop + n) = buf.take stop ++ data.take n := by
    have hlength : (buf.take stop).length = stop := List.length_take_of_le hstop
    rw [overwrite, List.append_assoc, List.take_append, hlength,
      List.take_of_length_le (l := buf.take stop) (by omega), Nat.add_sub_cancel_left,
      List.take_append_of_le_length hn]
  rw [window, window, htake, List.drop_append_of_le_length (by simp; omega)]

/-- What has been copied to the front is there. -/
theorem window_overwrite_zero (data : List α) :
    window (overwrite buf 0 data) 0 data.length = data := by
  simp [window, overwrite]

/-- A resize keeps what is not cut off. -/
theorem window_resize {fill : α} (hn : stop ≤ n) (hstop : stop ≤ buf.length) :
    window (resize buf n fill) start stop = window buf start stop := by
  rw [window, window, resize, List.take_append_of_le_length (by simp; omega), List.take_take,
    Nat.min_eq_left hn]

/-- Up to its end the data is the buffer. -/
theorem window_filled {data : List α} (fill : α) (hstop : stop ≤ data.length) :
    window (filled n fill data) start stop = window data start stop := by
  rw [window, window, filled, List.take_append_of_le_length hstop]

/-- Behind what was read, a fresh buffer still has its fill. -/
theorem filled_getD {data : List α} (fill : α) (i : Nat) :
    (filled n fill data).getD i fill = data.getD i fill := by
  rw [filled, List.getD_eq_getElem?_getD, List.getD_eq_getElem?_getD, List.getElem?_append]
  split
  · rfl
  · rename_i hi
    rw [List.getElem?_replicate, List.getElem?_eq_none (Nat.le_of_not_lt hi)]
    split <;> rfl

/-- Behind it there is only `fill`. -/
theorem mem_window_filled {data : List α} {fill a : α} (ha : a ≠ fill) :
    a ∈ window (filled n fill data) start stop ↔ a ∈ window data start stop := by
  have hfill (l : List α) (h : l <:+: List.replicate (n - data.length) fill) : a ∉ l := fun hmem =>
    ha (List.eq_of_mem_replicate (h.subset hmem))
  rw [window, window, filled, List.take_append, List.drop_append, List.mem_append]
  exact or_iff_left (hfill _
    ((List.drop_suffix _ _).isInfix.trans (List.take_prefix _ _).isInfix))

/-! ## The front alone -/

/-- Writing inside the front is writing to the front. -/
theorem window_zero_overwrite {data : List α} (h : start + data.length ≤ stop)
    (hstop : stop ≤ buf.length) :
    window (overwrite buf start data) 0 stop = overwrite (window buf 0 stop) start data := by
  simp only [window, overwrite, List.drop_zero]
  rw [List.take_append, List.take_of_length_le (by simp; omega), List.take_take,
    Nat.min_eq_left (by omega), List.drop_take]
  congr 2
  simp
  omega

end Buffer
