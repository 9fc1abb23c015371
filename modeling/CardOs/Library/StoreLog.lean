import CardOs.Library.ByteRegion

/-! Several memory regions changed by a log of single-byte stores. Cutting the log
short is losing power; what a cell holds afterwards depends only on the stores
made to it. -/
namespace CardOs.Library

/-- One byte stored, with a note of who stored it. -/
structure ByteStore (ι τ : Type) where
  origin : τ
  region : ι
  offset : Nat
  byte : UInt8
  deriving DecidableEq, Repr

namespace ByteStore
variable {ι τ : Type} {r : ι}

/-- The stores of a block, byte after byte from its first. -/
def ofBlock (origin : τ) (r : ι) (offset : Nat) : List UInt8 → List (ByteStore ι τ)
  | [] => []
  | b :: rest => ⟨origin, r, offset, b⟩ :: ofBlock origin r (offset + 1) rest

theorem mem_ofBlock {origin : τ} {offset : Nat} {bytes : List UInt8} {s : ByteStore ι τ} :
    s ∈ ofBlock origin r offset bytes ↔
      ∃ k, ∃ inside : k < bytes.length, s = ⟨origin, r, offset + k, bytes[k]⟩ := by
  induction bytes generalizing offset with
  | nil => simp [ofBlock]
  | cons b rest ih =>
    rw [ofBlock, List.mem_cons, ih]
    constructor
    · rintro (rfl | ⟨k, inside, rfl⟩)
      · exact ⟨0, Nat.zero_lt_succ _, rfl⟩
      · refine ⟨k + 1, Nat.succ_lt_succ inside, ?_⟩
        rw [List.getElem_cons_succ, Nat.add_assoc, Nat.add_comm 1]
    · rintro ⟨_ | k, inside, rfl⟩
      · exact .inl rfl
      · refine .inr ⟨k, Nat.lt_of_succ_lt_succ inside, ?_⟩
        rw [List.getElem_cons_succ, Nat.add_assoc, Nat.add_comm 1]

variable [DecidableEq ι] {memory : ι → Region} {log : List (ByteStore ι τ)} {i : Nat} {v : UInt8}

def apply (memory : ι → Region) (s : ByteStore ι τ) : ι → Region :=
  Function.update memory s.region ((memory s.region).store s.offset s.byte)

/-- The memory after the stores of a log, first to last. -/
def replay (memory : ι → Region) (log : List (ByteStore ι τ)) : ι → Region := log.foldl apply memory

theorem replay_append (memory : ι → Region) (first second : List (ByteStore ι τ)) :
    replay memory (first ++ second) = replay (replay memory first) second := List.foldl_append

theorem apply_byte (memory : ι → Region) (s : ByteStore ι τ) (r : ι) (i : Nat) :
    (apply memory s r).byte i = if s.region = r ∧ s.offset = i then s.byte else (memory r).byte i := by
  unfold apply
  by_cases here : s.region = r
  · subst here
    rw [Function.update_self]
    simp [Region.store, eq_comm]
  · rw [Function.update_of_ne (Ne.symm here)]
    simp [here]

theorem replay_size : (replay memory log r).size = (memory r).size := by
  induction log generalizing memory with
  | nil => rfl
  | cons s rest ih =>
    rw [replay, List.foldl_cons, ← replay, ih, apply]
    by_cases here : r = s.region
    · subst here
      rw [Function.update_self, Region.store_size]
    · rw [Function.update_of_ne here]

/-- A cell that every store to it leaves at `v` holds `v`, once it was stored or
if it did before. -/
theorem replay_settled (agree : ∀ s ∈ log, s.region = r → s.offset = i → s.byte = v)
    (reached : (memory r).byte i = v ∨ ∃ s ∈ log, s.region = r ∧ s.offset = i) :
    (replay memory log r).byte i = v := by
  induction log generalizing memory with
  | nil => simpa [replay] using reached
  | cons s rest ih =>
    obtain ⟨here, later⟩ := List.forall_mem_cons.mp agree
    refine ih later ?_
    rw [apply_byte]
    by_cases hit : s.region = r ∧ s.offset = i
    · exact .inl (by rw [if_pos hit, here hit.1 hit.2])
    · rw [if_neg hit]
      simpa [hit] using reached

theorem replay_untouched (apart : ∀ s ∈ log, s.region = r → s.offset ≠ i) :
    (replay memory log r).byte i = (memory r).byte i :=
  replay_settled (fun s member here there => absurd there (apart s member here)) (.inl rfl)

/-- Replaying the stores of a block stores the block. -/
theorem replay_ofBlock (memory : ι → Region) (origin : τ) (r : ι) (offset : Nat) (bytes : List UInt8) :
    replay memory (ofBlock origin r offset bytes) = Function.update memory r ((memory r).write offset bytes) := by
  induction bytes generalizing memory offset with
  | nil => simp [ofBlock, replay, Region.write]
  | cons b rest ih =>
    rw [ofBlock, replay, List.foldl_cons, ← replay, ih]
    simp [apply, Region.write]

end ByteStore
end CardOs.Library
