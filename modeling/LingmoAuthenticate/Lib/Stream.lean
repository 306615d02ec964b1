import Mathlib.Data.List.Basic
import Mathlib.Tactic.Lemma

/-!
# Frames on a stream

A stream delivers what has been written to it in order; where one write ends and the next one begins
is not kept. A reader asks for `n` elements at a time, and gets them, except that fewer may be left
at the end.

* `Reads n s chunks`: the reads of `n` elements from `s` return `chunks`.
* `reads_flatten_iff`: of frames of `n` elements, they return the frames.
* `Reads.length_lt`: how many reads there are in any case.
-/

namespace LingmoAuthenticate.Lib

variable {α : Type} {n : ℕ} {s t c d : List α} {chunks frames : List (List α)}

/-- Reads of `n` elements, one after another. The last one may find fewer, or wait for more. -/
inductive Reads (n : ℕ) : List α → List (List α) → Prop
  | waits {s : List α} (h : s.length < n) : Reads n s []
  | short {s : List α} (h : s.length < n) (hne : s ≠ []) : Reads n s [s]
  | full {c s : List α} {chunks : List (List α)} (hc : c.length = n) (h : Reads n s chunks) :
      Reads n (c ++ s) (c :: chunks)

/-- No read is empty. -/
theorem Reads.ne_nil (h : Reads n s chunks) (hn : 0 < n) : ∀ c ∈ chunks, c ≠ [] := by
  induction h with
  | waits h => simp
  | short h hne => simpa using hne
  | @full c s chunks hc h ih =>
      refine List.forall_mem_cons.mpr ⟨?_, ih⟩
      rintro rfl
      rw [← hc] at hn
      exact absurd hn (by simp)

/-- Where enough is there for a frame, it is what is read first. -/
theorem Reads.of_append (h : Reads n (d ++ t) chunks) (hd : d.length = n) :
    ∃ rest, chunks = d :: rest ∧ Reads n t rest := by
  generalize hs : d ++ t = s at h
  have hlen : n ≤ s.length := by
    rw [← hs, List.length_append, hd]
    exact Nat.le_add_right n t.length
  cases h with
  | waits h => omega
  | short h hne => omega
  | full hc h =>
      obtain ⟨rfl, rfl⟩ := List.append_inj hs (hd.trans hc.symm)
      exact ⟨_, rfl, h⟩

/-- **Frames of the size that is read** are read one by one. -/
theorem reads_flatten_iff (hn : 0 < n) (hframes : ∀ f ∈ frames, f.length = n) :
    Reads n frames.flatten chunks ↔ chunks = frames := by
  induction frames generalizing chunks with
  | nil =>
      constructor
      · intro h
        cases h' : chunks with
        | nil => rfl
        | cons c rest =>
            generalize hs : ([] : List (List α)).flatten = s at h
            rw [h'] at h
            cases h with
            | short h hne => exact absurd hs.symm hne
            | full hc h =>
                have hnil := (List.append_eq_nil_iff.mp hs.symm).1
                rw [hnil] at hc
                exact absurd hc.symm (Nat.ne_of_gt hn)
      · rintro rfl
        exact .waits hn
  | cons f frames ih =>
      obtain ⟨hf, hframes⟩ := List.forall_mem_cons.mp hframes
      rw [List.flatten_cons]
      constructor
      · intro h
        obtain ⟨rest, rfl, hrest⟩ := h.of_append hf
        rw [(ih hframes).mp hrest]
      · rintro rfl
        exact .full hf ((ih hframes).mpr rfl)

/-- What frames of one size come to. -/
theorem length_flatten_frames (hframes : ∀ f ∈ frames, f.length = n) :
    frames.flatten.length = frames.length * n := by
  induction frames with
  | nil => simp
  | cons f frames ih =>
      obtain ⟨hf, hframes⟩ := List.forall_mem_cons.mp hframes
      rw [List.flatten_cons, List.length_append, ih hframes, hf, List.length_cons, Nat.succ_mul,
        Nat.add_comm]

/-- There are as many reads as the size asks for. -/
theorem Reads.length_lt (h : Reads n s chunks) : s.length < n * (chunks.length + 1) := by
  induction h with
  | waits h => simpa using h
  | short h hne =>
      simp only [List.length_singleton]
      omega
  | full hc h ih =>
      rw [List.length_append, List.length_cons, hc, Nat.mul_succ]
      omega

/-- A stream can be read. -/
theorem exists_reads (hn : 0 < n) (s : List α) : ∃ chunks, Reads n s chunks := by
  induction hlen : s.length using Nat.strongRecOn generalizing s with
  | _ len ih =>
      by_cases h : s.length < n
      · exact ⟨[], .waits h⟩
      · have hdrop : (s.drop n).length < len := by
          rw [List.length_drop]
          omega
        obtain ⟨chunks, hchunks⟩ := ih _ hdrop (s.drop n) rfl
        have htake : (s.take n).length = n := List.length_take_of_le (Nat.not_lt.mp h)
        have hfull := Reads.full htake hchunks
        rw [List.take_append_drop] at hfull
        exact ⟨_, hfull⟩

end LingmoAuthenticate.Lib
