import Mathlib

/-! Readers that serve a stream in pieces. What they serve does not depend on how the
requests cut it. -/
namespace PiAudioNode.Lib

section Streams
open Stream'
variable {α : Type*} {piece : List α} {n : Nat}

theorem take_append (a : Stream' α) (h : piece.length ≤ n) :
    (piece ++ₛ a).take n = piece ++ a.take (n - piece.length) := by
  obtain ⟨k, rfl⟩ := Nat.exists_eq_add_of_le h
  rw [← append_take, Nat.add_sub_cancel_left]

theorem drop_append (a : Stream' α) (h : piece.length ≤ n) :
    (piece ++ₛ a).drop n = a.drop (n - piece.length) := by
  obtain ⟨k, rfl⟩ := Nat.exists_eq_add_of_le h
  rw [← Stream'.drop_drop, drop_append_stream, Nat.add_sub_cancel_left]

theorem take_const (x : α) (n : Nat) : (const x).take n = List.replicate n x := by
  induction n with
  | zero => rfl
  | succ n ih =>
    rw [take_succ, tail_const, ih]
    rfl

end Streams

section Reads
variable {σ ρ α β : Type*} (read : σ → ρ → (List α × β) × σ)

/-- The answers to requests made one after the other, and the state they leave. -/
def reads (s : σ) : List ρ → List (List α × β) × σ
  | [] => ([], s)
  | r :: rest => ((read s r).1 :: (reads (read s r).2 rest).1, (reads (read s r).2 rest).2)

/-- Every request takes its amount off what is still to come. -/
structure Serves (amount : ρ → Nat) (toCome : σ → Stream' α) (Valid : σ → Prop) : Prop where
  taken : ∀ s r, Valid s → (read s r).1.1 = (toCome s).take (amount r)
  dropped : ∀ s r, Valid s → toCome (read s r).2 = (toCome s).drop (amount r)
  valid : ∀ s r, Valid s → Valid (read s r).2

variable {read} {amount : ρ → Nat} {toCome : σ → Stream' α} {Valid : σ → Prop} {s : σ}

/-- The pieces together are a prefix of the stream. -/
theorem Serves.flatMap_reads (h : Serves read amount toCome Valid) (hs : Valid s) (rs : List ρ) :
    (reads read s rs).1.flatMap Prod.fst = (toCome s).take (rs.map amount).sum := by
  induction rs generalizing s with
  | nil => rfl
  | cons r rs ih =>
    rw [reads, List.flatMap_cons, ih (h.valid s r hs), h.taken s r hs, h.dropped s r hs, List.map_cons, List.sum_cons,
      Stream'.take_add]

/-- The answer to a request is the one that its predecessors leave. -/
theorem reads_getElem? {rs : List ρ} {i : Nat} {r : ρ} (hr : rs[i]? = some r) :
    (reads read s rs).1[i]? = some (read (reads read s (rs.take i)).2 r).1 := by
  induction rs generalizing s i with
  | nil => cases hr
  | cons r' rs ih =>
    cases i with
    | zero =>
      obtain rfl := Option.some.inj hr
      rfl
    | succ i => exact ih hr

end Reads

end PiAudioNode.Lib
