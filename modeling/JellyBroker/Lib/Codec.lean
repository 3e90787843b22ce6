import Mathlib.Tactic
/-!
# Readers and encodings

A reader takes a value from the front of a list of symbols or fails.  `Reads` says
that it takes exactly one encoding of the value and fails on every part of that
encoding; this is closed under sequencing, so that a format is checked field by
field.  `IsCodec` adds that nothing but encodings is read.  `many` reads values
until nothing is left.

The last section splits a 16-bit word into its bytes.
-/

namespace JellyBroker.Lib.Codec

/-- A computation that reads from the front of a list of symbols and may fail.  The
state is what is left. -/
abbrev ListReader (σ ε : Type) := StateT (List σ) (Except ε)

variable {σ ε β γ : Type}

theorem bind_of_ok {read : ListReader σ ε β} {next : β → ListReader σ ε γ} {buf rest : List σ}
    {value : β} (h : read buf = .ok (value, rest)) : (read >>= next) buf = next value rest := by
  change (read buf >>= fun taken => next taken.1 taken.2) = _
  rw [h]
  rfl

theorem bind_of_error {read : ListReader σ ε β} {next : β → ListReader σ ε γ} {buf : List σ} {e : ε}
    (h : read buf = .error e) : (read >>= next) buf = .error e := by
  change (read buf >>= fun taken => next taken.1 taken.2) = _
  rw [h]
  rfl

theorem bind_eq_ok {read : ListReader σ ε β} {next : β → ListReader σ ε γ} {buf rest : List σ}
    {value : γ} (h : (read >>= next) buf = .ok (value, rest)) :
    ∃ first mid, read buf = .ok (first, mid) ∧ next first mid = .ok (value, rest) := by
  cases hread : read buf with
  | error e =>
      rw [bind_of_error hread] at h
      cases h
  | ok taken =>
      rw [bind_of_ok hread] at h
      exact ⟨taken.1, taken.2, rfl, h⟩

theorem map_eq_ok_iff {read : ListReader σ ε β} {f : β → γ} {buf rest : List σ} {value : γ} :
    (f <$> read) buf = .ok (value, rest) ↔
      ∃ first, read buf = .ok (first, rest) ∧ f first = value := by
  rw [← bind_pure_comp]
  constructor
  · intro h
    obtain ⟨first, mid, hread, hpure⟩ := bind_eq_ok h
    cases hpure
    exact ⟨first, hread, rfl⟩
  · rintro ⟨first, hread, rfl⟩
    rw [bind_of_ok hread]
    rfl

/-! ## One encoding -/

def Fails (read : ListReader σ ε β) (buf : List σ) : Prop := ∃ e, read buf = .error e

/-- The reader takes the encoding of the value from the front of any list, and fails
where the list ends before the encoding does. -/
structure Reads (read : ListReader σ ε β) (enc : List σ) (value : β) : Prop where
  whole : ∀ more, read (enc ++ more) = .ok (value, more)
  cut : ∀ n < enc.length, Fails read (enc.take n)

theorem Fails.bind {read : ListReader σ ε β} {buf : List σ} (h : Fails read buf)
    (next : β → ListReader σ ε γ) : Fails (read >>= next) buf := by
  obtain ⟨e, he⟩ := h
  exact ⟨e, bind_of_error he⟩

theorem reads_pure (value : β) : Reads (pure value : ListReader σ ε β) [] value where
  whole _ := rfl
  cut n hn := absurd hn (Nat.not_lt_zero n)

theorem Reads.bind {read : ListReader σ ε β} {next : β → ListReader σ ε γ} {enc enc' : List σ}
    {first : β} {value : γ} (h : Reads read enc first) (h' : Reads (next first) enc' value) :
    Reads (read >>= next) (enc ++ enc') value where
  whole more := by
    rw [List.append_assoc, bind_of_ok (h.whole _), h'.whole]
  cut n hn := by
    rw [List.length_append] at hn
    rw [List.take_append]
    by_cases hfirst : n < enc.length
    · have hnone : n - enc.length = 0 := by omega
      rw [hnone, List.take_zero, List.append_nil]
      exact (h.cut n hfirst).bind next
    · obtain ⟨e, he⟩ := h'.cut (n - enc.length) (by omega)
      rw [List.take_of_length_le (by omega)]
      exact ⟨e, by rw [bind_of_ok (h.whole _), he]⟩

theorem Reads.map {read : ListReader σ ε β} {enc : List σ} {value : β} (h : Reads read enc value)
    (f : β → γ) : Reads (f <$> read) enc (f value) := by
  have hbind : Reads (read >>= fun first => pure (f first)) (enc ++ []) (f value) :=
    h.bind (reads_pure (f value))
  rw [List.append_nil] at hbind
  rw [← bind_pure_comp]
  exact hbind

/-! ## Formats -/

/-- The reader takes the encodings of the valid values and nothing else. -/
structure IsCodec (read : ListReader σ ε β) (enc : β → List σ) (valid : β → Prop) : Prop where
  reads : ∀ value, valid value → Reads read (enc value) value
  sound : ∀ {buf value rest}, read buf = .ok (value, rest) → valid value ∧ buf = enc value ++ rest

/-- A reader that reads back every encoding and reads nothing else also fails on
every part of an encoding: what it read of the part would be read of the whole. -/
theorem IsCodec.of_whole {read : ListReader σ ε β} {enc : β → List σ} {valid : β → Prop}
    (whole : ∀ value, valid value → ∀ more, read (enc value ++ more) = .ok (value, more))
    (sound : ∀ {buf value rest}, read buf = .ok (value, rest) →
      valid value ∧ buf = enc value ++ rest) : IsCodec read enc valid where
  reads value hvalid :=
    { whole := whole value hvalid
      cut := by
        intro n hn
        cases hread : read ((enc value).take n) with
        | error e => exact ⟨e, hread⟩
        | ok taken =>
            obtain ⟨part, rest⟩ := taken
            obtain ⟨hpart, htake⟩ := sound hread
            have hall : enc value = enc part ++ (rest ++ (enc value).drop n) := by
              rw [← List.append_assoc, ← htake, List.take_append_drop]
            have hwhole := whole value hvalid []
            rw [List.append_nil, hall, whole part hpart] at hwhole
            have hrest : rest ++ (enc value).drop n = [] :=
              (Prod.mk.inj (Except.ok.inj hwhole)).2
            have hlength := List.drop_eq_nil_iff.mp (List.append_eq_nil_iff.mp hrest).2
            omega }
  sound := sound

theorem IsCodec.whole {read : ListReader σ ε β} {enc : β → List σ} {valid : β → Prop}
    (h : IsCodec read enc valid) {value : β} (hvalid : valid value) (more : List σ) :
    read (enc value ++ more) = .ok (value, more) :=
  (h.reads value hvalid).whole more

theorem IsCodec.pair {read : ListReader σ ε β} {enc : β → List σ} {valid : β → Prop}
    (h : IsCodec read enc valid) {read' : ListReader σ ε γ} {enc' : γ → List σ} {valid' : γ → Prop}
    (h' : IsCodec read' enc' valid') :
    IsCodec (read >>= fun first => read' >>= fun second => pure (first, second))
      (fun values => enc values.1 ++ enc' values.2)
      (fun values => valid values.1 ∧ valid' values.2) where
  reads values hvalid := by
    apply (h.reads values.1 hvalid.1).bind
    have hsecond := (h'.reads values.2 hvalid.2).map fun second => (values.1, second)
    rw [← bind_pure_comp] at hsecond
    exact hsecond
  sound hread := by
    obtain ⟨first, mid, hfirst, hrest⟩ := bind_eq_ok hread
    obtain ⟨second, rest, hsecond, hpure⟩ := bind_eq_ok hrest
    obtain ⟨hvalid, hbuf⟩ := h.sound hfirst
    obtain ⟨hvalid', hmid⟩ := h'.sound hsecond
    cases hpure
    refine ⟨⟨hvalid, hvalid'⟩, ?_⟩
    rw [hbuf, hmid, List.append_assoc]

/-! ## Reading a number of values -/

def exactly (read : ListReader σ ε β) : Nat → ListReader σ ε (List β)
  | 0 => pure []
  | count + 1 => do
      let value ← read
      let values ← exactly read count
      return value :: values

theorem isCodec_exactly {read : ListReader σ ε β} {enc : β → List σ} {valid : β → Prop}
    (h : IsCodec read enc valid) (count : Nat) :
    IsCodec (exactly read count) (fun values => values.flatMap enc)
      (fun values => values.length = count ∧ ∀ value ∈ values, valid value) := by
  induction count with
  | zero =>
      apply IsCodec.of_whole
      · intro values hvalues more
        rw [List.length_eq_zero_iff.mp hvalues.1]
        rfl
      · intro buf values rest hread
        cases hread
        exact ⟨⟨rfl, by simp⟩, rfl⟩
  | succ count ih =>
      apply IsCodec.of_whole
      · intro values hvalues more
        obtain ⟨hlength, hvalid⟩ := hvalues
        cases values with
        | nil => cases hlength
        | cons value values =>
            obtain ⟨hvalue, hrest⟩ := List.forall_mem_cons.mp hvalid
            have hothers := ih.whole ⟨Nat.succ.inj hlength, hrest⟩ more
            rw [List.flatMap_cons, List.append_assoc, exactly, bind_of_ok (h.whole hvalue _),
              bind_of_ok hothers]
            rfl
      · intro buf values rest hread
        obtain ⟨value, mid, hvalue, hread⟩ := bind_eq_ok hread
        obtain ⟨others, rest', hothers, hpure⟩ := bind_eq_ok hread
        obtain ⟨hvalid, hbuf⟩ := h.sound hvalue
        obtain ⟨⟨hcount, hvalids⟩, hmid⟩ := ih.sound hothers
        cases hpure
        refine ⟨⟨congrArg Nat.succ hcount, List.forall_mem_cons.mpr ⟨hvalid, hvalids⟩⟩, ?_⟩
        rw [hbuf, hmid, List.flatMap_cons, List.append_assoc]

/-! ## Reading to the end -/

/-- Read values until nothing is left, in at most `turns` turns. -/
def many (read : ListReader σ ε β) : Nat → ListReader σ ε (List β)
  | 0 => pure []
  | turns + 1 => do
      if (← get).isEmpty then return []
      let value ← read
      let values ← many read turns
      return value :: values

variable {read : ListReader σ ε β} {enc : β → List σ} {valid : β → Prop}

theorem many_nil (read : ListReader σ ε β) (turns : Nat) : many read turns [] = .ok ([], []) := by
  cases turns with
  | zero => rfl
  | succ turns => rfl

theorem many_succ {buf : List σ} (hbuf : buf ≠ []) (turns : Nat) :
    many read (turns + 1) buf =
      (read >>= fun value => many read turns >>= fun values => pure (value :: values)) buf := by
  have hget : (get : ListReader σ ε (List σ)) buf = .ok (buf, buf) := rfl
  have hempty : ¬buf.isEmpty = true := by simpa using hbuf
  rw [many, bind_of_ok hget, if_neg hempty]

theorem encodings_ne_nil (hne : ∀ value, valid value → enc value ≠ []) {value : β}
    (hvalid : valid value) (more : List σ) : enc value ++ more ≠ [] := by
  intro hnil
  exact hne value hvalid (List.append_eq_nil_iff.mp hnil).1

theorem many_append (h : IsCodec read enc valid) (hne : ∀ value, valid value → enc value ≠ [])
    {values : List β} (hvalid : ∀ value ∈ values, valid value) (turns : Nat) (tail : List σ) :
    many read (values.length + turns) (values.flatMap enc ++ tail) =
      ((values ++ ·) <$> many read turns) tail := by
  induction values with
  | nil =>
      rw [List.length_nil, Nat.zero_add, List.flatMap_nil]
      change many read turns tail = ((fun rest => rest) <$> many read turns) tail
      rw [id_map']
  | cons value values ih =>
      have hvalue := hvalid value List.mem_cons_self
      have hrest := ih fun other hother => hvalid other (List.mem_cons_of_mem _ hother)
      rw [List.length_cons, Nat.add_right_comm, List.flatMap_cons, List.append_assoc,
        many_succ (encodings_ne_nil hne hvalue _),
        bind_of_ok (h.whole hvalue _)]
      cases hmany : many read turns tail with
      | error e =>
          rw [← bind_pure_comp, bind_of_error hmany] at hrest
          rw [bind_of_error hrest, ← bind_pure_comp, bind_of_error hmany]
      | ok taken =>
          rw [← bind_pure_comp, bind_of_ok hmany] at hrest
          rw [bind_of_ok hrest, ← bind_pure_comp, bind_of_ok hmany]
          rfl

theorem length_le_flatMap (hne : ∀ value, valid value → enc value ≠ []) {values : List β}
    (hvalid : ∀ value ∈ values, valid value) : values.length ≤ (values.flatMap enc).length := by
  induction values with
  | nil => exact Nat.zero_le _
  | cons value values ih =>
      have hrest := ih fun other hother => hvalid other (List.mem_cons_of_mem _ hother)
      have hpos := List.length_pos_iff.mpr (hne value (hvalid value List.mem_cons_self))
      rw [List.flatMap_cons, List.length_append, List.length_cons]
      omega

/-- The loop succeeds exactly on encodings of valid values that fill the list. -/
theorem many_eq_ok_iff (h : IsCodec read enc valid) (hne : ∀ value, valid value → enc value ≠ [])
    {buf rest : List σ} {values : List β} {turns : Nat} (hturns : buf.length < turns) :
    many read turns buf = .ok (values, rest) ↔
      (∀ value ∈ values, valid value) ∧ buf = values.flatMap enc ∧ rest = [] := by
  constructor
  · intro hread
    induction turns generalizing buf values with
    | zero => omega
    | succ turns ih =>
        by_cases hbuf : buf = []
        · rw [hbuf, many_nil] at hread
          cases hread
          exact ⟨by simp, hbuf, rfl⟩
        · rw [many_succ hbuf] at hread
          obtain ⟨value, mid, hvalue, hread⟩ := bind_eq_ok hread
          obtain ⟨others, rest', hothers, hpure⟩ := bind_eq_ok hread
          obtain ⟨hvalid, hsplit⟩ := h.sound hvalue
          have hpos := List.length_pos_iff.mpr (hne value hvalid)
          have hlength := congrArg List.length hsplit
          rw [List.length_append] at hlength
          have hshort : mid.length < turns := by omega
          cases hpure
          obtain ⟨hvalids, hmid, hrest⟩ := ih hshort hothers
          refine ⟨List.forall_mem_cons.mpr ⟨hvalid, hvalids⟩, ?_, hrest⟩
          rw [hsplit, hmid, List.flatMap_cons]
  · rintro ⟨hvalid, rfl, rfl⟩
    have hcount := length_le_flatMap hne hvalid
    obtain ⟨more, rfl⟩ : ∃ more, turns = values.length + more :=
      ⟨turns - values.length, by omega⟩
    have hread := many_append h hne hvalid more []
    rw [List.append_nil, ← bind_pure_comp, bind_of_ok (many_nil read more)] at hread
    rw [hread, List.append_nil]
    rfl

/-- The loop fails where the values are followed by symbols that the reader fails
on. -/
theorem many_fails (h : IsCodec read enc valid) (hne : ∀ value, valid value → enc value ≠ [])
    {values : List β} (hvalid : ∀ value ∈ values, valid value) {tail : List σ} (htail : tail ≠ [])
    (hfails : Fails read tail) {turns : Nat} (hturns : values.length < turns) :
    Fails (many read turns) (values.flatMap enc ++ tail) := by
  obtain ⟨more, rfl⟩ : ∃ more, turns = values.length + (more + 1) :=
    ⟨turns - values.length - 1, by omega⟩
  have hloop : Fails (many read (more + 1)) tail := by
    obtain ⟨e, he⟩ := hfails.bind fun value => many read more >>= fun values =>
      pure (value :: values)
    exact ⟨e, by rw [many_succ htail, he]⟩
  obtain ⟨e, he⟩ := hloop.bind fun rest => pure (values ++ rest)
  exact ⟨e, by rw [many_append h hne hvalid, ← bind_pure_comp, he]⟩

/-- More turns than there are symbols make no difference: the loop has ended by
then. -/
theorem many_turns (h : IsCodec read enc valid) (hne : ∀ value, valid value → enc value ≠ [])
    {buf : List σ} {turns turns' : Nat} (hturns : buf.length < turns)
    (hturns' : buf.length < turns') : many read turns buf = many read turns' buf := by
  induction turns generalizing buf turns' with
  | zero => omega
  | succ turns ih =>
      obtain ⟨turns', rfl⟩ : ∃ more, turns' = more + 1 := ⟨turns' - 1, by omega⟩
      by_cases hbuf : buf = []
      · rw [hbuf, many_nil, many_nil]
      · rw [many_succ hbuf, many_succ hbuf]
        cases hvalue : read buf with
        | error e => rw [bind_of_error hvalue, bind_of_error hvalue]
        | ok taken =>
            obtain ⟨value, mid⟩ := taken
            obtain ⟨hvalid, hsplit⟩ := h.sound hvalue
            have hpos := List.length_pos_iff.mpr (hne value hvalid)
            have hlength := congrArg List.length hsplit
            rw [List.length_append] at hlength
            have hshort : mid.length < turns := by omega
            have hshort' : mid.length < turns' := by omega
            have hsame := ih hshort hshort'
            rw [bind_of_ok hvalue, bind_of_ok hvalue]
            change (many read turns mid >>= _) = (many read turns' mid >>= _)
            rw [hsame]

/-! ## The bytes of a word -/

theorem toNat_bytesToWord (high low : UInt8) :
    (high.toUInt16 <<< 8 ||| low.toUInt16).toNat = 256 * high.toNat + low.toNat := by
  have hhigh := high.toNat_lt
  have hlow := low.toNat_lt
  have hor := Nat.two_pow_add_eq_or_of_lt (b := low.toNat) (i := 8) hlow high.toNat
  simp only [UInt16.toNat_or, UInt16.toNat_shiftLeft, UInt8.toNat_toUInt16, UInt16.reduceToNat,
    Nat.reduceMod, Nat.shiftLeft_eq, Nat.reducePow]
  have hfits : high.toNat * 256 % 65536 = 2 ^ 8 * high.toNat := by omega
  rw [hfits, ← hor]

theorem wordOfBytes (v : UInt16) :
    (v >>> 8).toUInt8.toUInt16 <<< 8 ||| v.toUInt8.toUInt16 = v := by
  have hv := v.toNat_lt
  apply UInt16.toNat_inj.mp
  rw [toNat_bytesToWord]
  simp only [UInt16.toNat_toUInt8, UInt16.toNat_shiftRight, UInt16.reduceToNat, Nat.reduceMod,
    Nat.shiftRight_eq_div_pow, Nat.reducePow]
  omega

theorem highByte_bytesToWord (high low : UInt8) :
    ((high.toUInt16 <<< 8 ||| low.toUInt16) >>> 8).toUInt8 = high := by
  have hhigh := high.toNat_lt
  have hlow := low.toNat_lt
  apply UInt8.toNat_inj.mp
  simp only [UInt16.toNat_toUInt8, UInt16.toNat_shiftRight, UInt16.reduceToNat, Nat.reduceMod,
    Nat.shiftRight_eq_div_pow, Nat.reducePow, toNat_bytesToWord]
  omega

theorem lowByte_bytesToWord (high low : UInt8) :
    (high.toUInt16 <<< 8 ||| low.toUInt16).toUInt8 = low := by
  have hlow := low.toNat_lt
  apply UInt8.toNat_inj.mp
  rw [UInt16.toNat_toUInt8, toNat_bytesToWord]
  omega

end JellyBroker.Lib.Codec
