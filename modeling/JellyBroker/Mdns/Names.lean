import JellyBroker.Lib.Walk
import JellyBroker.Mdns.Responder
/-!
# Names with compression pointers

`decode_name` walks over the labels of a name and jumps where a compression
pointer leads.  It has no bound on the jumps and does not ask where they lead, so
it returns exactly when this walk meets no cycle.
-/

namespace JellyBroker.Mdns

open JellyBroker.Lib Relation

/-- Where a name goes on behind the label or the pointer at an offset.  It ends at
a root label, at the end of the data and where the data cut a label or a pointer
off. -/
def follow (data : Bytes) (offset : Nat) : Option Nat :=
  match data[offset]? with
  | none => none
  | some b =>
      if b = 0 then none
      else if isPointer b then (data[offset + 1]?).map (pointerTarget b)
      else if offset + 1 + b.toNat ≤ data.length then some (offset + 1 + b.toNat)
      else none

theorem pointerTarget_lt (b low : UInt8) : pointerTarget b low < 2 ^ 16 :=
  UInt16.toNat_lt _

/-- A label leads no further than the end of the data, and a pointer has 14
bits. -/
theorem follow_le {data : Bytes} {offset offset' : Nat} (h : follow data offset = some offset') :
    offset' ≤ data.length + 2 ^ 16 := by
  unfold follow at h
  cases hbyte : data[offset]? with
  | none =>
      rw [hbyte] at h
      cases h
  | some b =>
      rw [hbyte] at h
      dsimp only at h
      split_ifs at h with hroot hpointer hlabel
      · obtain ⟨low, _, htarget⟩ := Option.map_eq_some_iff.mp h
        have hlt := pointerTarget_lt b low
        omega
      · have hoffset : offset + 1 + b.toNat = offset' := Option.some.inj h
        omega

theorem finite_followed (data : Bytes) (offset : Nat) :
    {p | ReflTransGen (Walk.Step (follow data)) offset p}.Finite := by
  apply Walk.finite_visited (Set.finite_Iic (data.length + 2 ^ 16))
  intro p q hstep
  exact follow_le hstep

/-- Each pass through the loop is one step of the walk, whatever was read
before. -/
theorem isSome_decodeNameFrom (data : Bytes) (fuel : Nat) (name : Bytes) (first : Bool)
    (offset : Nat) :
    (decodeNameFrom data fuel name first offset).isSome = true ↔
      Walk.EndsWithin (follow data) fuel offset := by
  induction fuel generalizing name first offset with
  | zero => simp [decodeNameFrom, Walk.EndsWithin]
  | succ fuel ih =>
      unfold decodeNameFrom
      cases hbyte : data[offset]? with
      | none =>
          have hend : follow data offset = none := by simp [follow, hbyte]
          exact iff_of_true rfl (Walk.endsWithin_of_end hend)
      | some b =>
          dsimp only
          split_ifs with hroot hpointer hcut
          · have hend : follow data offset = none := by simp [follow, hbyte, hroot]
            exact iff_of_true rfl (Walk.endsWithin_of_end hend)
          · cases hlow : data[offset + 1]? with
            | none =>
                have hend : follow data offset = none := by
                  simp [follow, hbyte, hroot, hpointer, hlow]
                exact iff_of_true rfl (Walk.endsWithin_of_end hend)
            | some low =>
                have hjump : follow data offset = some (pointerTarget b low) := by
                  simp [follow, hbyte, hroot, hpointer, hlow]
                rw [Option.isSome_map, ih, Walk.endsWithin_of_step hjump]
          · have hend : follow data offset = none := by
              rw [List.length_take, List.length_drop] at hcut
              have hlong : ¬offset + 1 + b.toNat ≤ data.length := by omega
              simp [follow, hbyte, hroot, hpointer, hlong]
            exact iff_of_true rfl (Walk.endsWithin_of_end hend)
          · have hlabel : follow data offset = some (offset + 1 + b.toNat) := by
              rw [List.length_take, List.length_drop] at hcut
              have hlt : offset < data.length := (List.getElem?_eq_some_iff.mp hbyte).1
              have hfits : offset + 1 + b.toNat ≤ data.length := by omega
              simp [follow, hbyte, hroot, hpointer, hfits]
            rw [ih, Walk.endsWithin_of_step hlabel]

theorem exists_decodeName_iff (data : Bytes) (offset : Nat) :
    (∃ fuel, (decodeName data fuel offset).isSome = true) ↔
      ¬Walk.MeetsCycle (follow data) offset := by
  rw [← Walk.exists_endsWithin_iff (finite_followed data offset)]
  unfold decodeName
  simp only [isSome_decodeNameFrom]

theorem decodeNameFrom_succ {data : Bytes} {fuel : Nat} {name : Bytes} {first : Bool}
    {offset : Nat} {result : Bytes × Nat}
    (h : decodeNameFrom data fuel name first offset = some result) :
    decodeNameFrom data (fuel + 1) name first offset = some result := by
  induction fuel generalizing name first offset result with
  | zero => cases h
  | succ fuel ih =>
      unfold decodeNameFrom at h ⊢
      cases hbyte : data[offset]? with
      | none =>
          rw [hbyte] at h
          exact h
      | some b =>
          rw [hbyte] at h
          dsimp only at h ⊢
          split_ifs at h ⊢ with hroot hpointer hcut
          · exact h
          · cases hlow : data[offset + 1]? with
            | none =>
                rw [hlow] at h
                exact h
            | some low =>
                rw [hlow] at h
                obtain ⟨rest, hrest, hresult⟩ := Option.map_eq_some_iff.mp h
                dsimp only
                rw [ih hrest, Option.map_some, hresult]
          · exact h
          · exact ih h

theorem decodeName_mono {data : Bytes} {fuel more offset : Nat} {result : Bytes × Nat}
    (hmore : fuel ≤ more) (h : decodeName data fuel offset = some result) :
    decodeName data more offset = some result := by
  induction more, hmore using Nat.le_induction with
  | base => exact h
  | succ more _ ih => exact decodeNameFrom_succ ih

/-- `decode_name` returns, with one result for all numbers of passes through its
loop that are enough, exactly when the labels and pointers from the offset on
never lead back to an offset on their way. -/
theorem decodeName_returns_iff (data : Bytes) (offset : Nat) :
    (∃ result fuel, ∀ more ≥ fuel, decodeName data more offset = some result) ↔
      ¬Walk.MeetsCycle (follow data) offset := by
  rw [← exists_decodeName_iff]
  constructor
  · rintro ⟨result, fuel, hreturns⟩
    refine ⟨fuel, ?_⟩
    rw [hreturns fuel (le_refl fuel)]
    rfl
  · rintro ⟨fuel, hsome⟩
    obtain ⟨result, hresult⟩ := Option.isSome_iff_exists.mp hsome
    exact ⟨result, fuel, fun more hmore => decodeName_mono hmore hresult⟩

/-- The name `a.b`, with its second label behind a pointer. -/
theorem decodeName_returns_behind_pointer :
    ∃ result fuel, ∀ more ≥ fuel,
      decodeName [1, 0x62, 0, 1, 0x61, 0xC0, 0] more 3 = some result := by
  apply (decodeName_returns_iff [1, 0x62, 0, 1, 0x61, 0xC0, 0] 3).mpr
  rw [← exists_decodeName_iff]
  exact ⟨4, by decide +kernel⟩

/-- A pointer to itself, as the first question of a datagram: no number of passes
is enough. -/
theorem decodeName_self_pointer :
    follow (List.replicate 12 0 ++ [0xC0, 12]) 12 = some 12 ∧
      ∀ fuel, decodeName (List.replicate 12 0 ++ [0xC0, 12]) fuel 12 = none := by
  have hstep : follow (List.replicate 12 0 ++ [0xC0, 12]) 12 = some 12 := by decide +kernel
  refine ⟨hstep, ?_⟩
  intro fuel
  rw [← Option.not_isSome_iff_eq_none, decodeName, isSome_decodeNameFrom]
  exact Walk.not_endsWithin_of_cycle (TransGen.single hstep)

end JellyBroker.Mdns
