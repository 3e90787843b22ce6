import Mathlib.Tactic
/-!
# Cutting a stream into packets

A cutter looks at the beginning of a stream and finds the size of the first
packet there, or that no packet can begin so, or that more of the stream is
needed.  What it has found does not change when more of the stream arrives.
The packets of a stream are then the same in whatever pieces it arrives.
-/

namespace JellyBroker.Lib

inductive Head where
  | packet (size : Nat)
  | error
  | incomplete
  deriving DecidableEq

inductive Ending (β : Type) where
  | error
  | residue (rest : List β)
  deriving DecidableEq

structure Cutter (β : Type) where
  head : List β → Head
  packet_bounds : ∀ {stream size}, head stream = .packet size →
    0 < size ∧ size ≤ stream.length
  packet_append : ∀ {stream size}, head stream = .packet size → ∀ more,
    head (stream ++ more) = .packet size
  error_append : ∀ {stream}, head stream = .error → ∀ more, head (stream ++ more) = .error

namespace Cutter

variable {β : Type}

/-- The packets of a stream and how it ends. -/
def frames (cutter : Cutter β) (stream : List β) : List (List β) × Ending β :=
  match _hhead : cutter.head stream with
  | .packet size =>
      let following := cutter.frames (stream.drop size)
      (stream.take size :: following.1, following.2)
  | .error => ([], .error)
  | .incomplete => ([], .residue stream)
termination_by stream.length
decreasing_by
  have hbounds := cutter.packet_bounds _hhead
  rw [List.length_drop]
  omega

variable {cutter : Cutter β} {stream : List β}

theorem frames_of_packet {size : Nat} (h : cutter.head stream = .packet size) :
    cutter.frames stream = (stream.take size :: (cutter.frames (stream.drop size)).1,
      (cutter.frames (stream.drop size)).2) := by
  rw [frames]
  split
  · rename_i size' h'
    rw [h] at h'
    cases h'
    rfl
  · rename_i h'
    rw [h] at h'
    cases h'
  · rename_i h'
    rw [h] at h'
    cases h'

theorem frames_of_error (h : cutter.head stream = .error) :
    cutter.frames stream = ([], .error) := by
  rw [frames]
  split <;> rename_i h' <;> rw [h] at h' <;> cases h'

theorem frames_of_incomplete (h : cutter.head stream = .incomplete) :
    cutter.frames stream = ([], .residue stream) := by
  rw [frames]
  split <;> rename_i h' <;> rw [h] at h' <;> cases h'

theorem stream_induction (cutter : Cutter β) {motive : List β → Prop}
    (packet : ∀ stream size, cutter.head stream = .packet size →
      motive (stream.drop size) → motive stream)
    (error : ∀ stream, cutter.head stream = .error → motive stream)
    (incomplete : ∀ stream, cutter.head stream = .incomplete → motive stream)
    (stream : List β) : motive stream := by
  induction hlength : stream.length using Nat.strong_induction_on generalizing stream with
  | _ length ih =>
      cases hhead : cutter.head stream with
      | packet size =>
          have hbounds := cutter.packet_bounds hhead
          apply packet stream size hhead
          apply ih (stream.drop size).length _ _ rfl
          rw [List.length_drop]
          omega
      | error => exact error stream hhead
      | incomplete => exact incomplete stream hhead

/-- What is left of a stream is the beginning of a packet. -/
theorem head_residue {rest : List β} (h : (cutter.frames stream).2 = .residue rest) :
    cutter.head rest = .incomplete := by
  induction stream using cutter.stream_induction with
  | packet stream size hhead ih =>
      rw [frames_of_packet hhead] at h
      exact ih h
  | error stream hhead =>
      rw [frames_of_error hhead] at h
      cases h
  | incomplete stream hhead =>
      rw [frames_of_incomplete hhead] at h
      cases h
      exact hhead

theorem frames_append_of_residue {rest : List β} (h : (cutter.frames stream).2 = .residue rest)
    (more : List β) :
    cutter.frames (stream ++ more) =
      ((cutter.frames stream).1 ++ (cutter.frames (rest ++ more)).1,
        (cutter.frames (rest ++ more)).2) := by
  induction stream using cutter.stream_induction with
  | packet stream size hhead ih =>
      have hbounds := cutter.packet_bounds hhead
      rw [frames_of_packet hhead] at h ⊢
      rw [frames_of_packet (cutter.packet_append hhead more),
        List.take_append_of_le_length hbounds.2, List.drop_append_of_le_length hbounds.2, ih h]
      rfl
  | error stream hhead =>
      rw [frames_of_error hhead] at h
      cases h
  | incomplete stream hhead =>
      rw [frames_of_incomplete hhead] at h ⊢
      cases h
      rfl

theorem frames_append_of_error (h : (cutter.frames stream).2 = .error) (more : List β) :
    cutter.frames (stream ++ more) = cutter.frames stream := by
  induction stream using cutter.stream_induction with
  | packet stream size hhead ih =>
      have hbounds := cutter.packet_bounds hhead
      rw [frames_of_packet hhead] at h ⊢
      rw [frames_of_packet (cutter.packet_append hhead more),
        List.take_append_of_le_length hbounds.2, List.drop_append_of_le_length hbounds.2, ih h]
  | error stream hhead =>
      rw [frames_of_error hhead, frames_of_error (cutter.error_append hhead more)]
  | incomplete stream hhead =>
      rw [frames_of_incomplete hhead] at h
      cases h

end Cutter

end JellyBroker.Lib
