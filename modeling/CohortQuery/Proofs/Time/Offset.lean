import CohortQuery.Proofs.Time.StoreForm

/-!
# Conversion to UTC

A time with an offset has the store form of the point to which the minutes of the offset lead,
backwards, from the point by the clocks of the zone. The layout without an offset gives the same
store form for the date and the time of the day in UTC.
-/

set_option autoImplicit false

namespace CohortQuery.Time

open CohortQuery.Text (isDigit ofDigits paddedNumeral padded_digits padded_length padded_value
  padded_injective)

theorem zeros_behind (ds : List Char) (k : Nat) :
    ofDigits (ds ++ List.replicate k '0') = ofDigits ds * 10 ^ k := by
  rw [Text.of_digits_append, Text.zeros_value, List.length_replicate, Nat.add_zero]

theorem milliseconds_cut {ds : List Char} (h : ∀ c ∈ ds, isDigit c = true) :
    milliseconds ds = 1000 * ofDigits ds / 10 ^ ds.length := by
  by_cases hl : ds.length ≤ 3
  · obtain ⟨k, hk⟩ : ∃ k, 3 = ds.length + k := ⟨3 - ds.length, by omega⟩
    have hz : (ds ++ ['0', '0', '0']).take 3 = ds ++ List.replicate k '0' := by
      have h0 : ['0', '0', '0'] = List.replicate 3 '0' := rfl
      rw [h0, hk, List.take_length_add_append, List.take_replicate, Nat.min_eq_left (by omega)]
    have hp : 1000 * ofDigits ds = 10 ^ ds.length * (ofDigits ds * 10 ^ k) := by
      have h3 : 1000 = 10 ^ ds.length * 10 ^ k := by rw [← Nat.pow_add, ← hk]
      rw [h3]
      ring
    rw [milliseconds, hz, zeros_behind, hp, Nat.mul_div_cancel_left _ (Nat.pow_pos (by decide))]
  · obtain ⟨k, hk⟩ : ∃ k, ds.length = 3 + k := ⟨ds.length - 3, by omega⟩
    have hd := List.take_append_drop 3 ds
    have hr : (ds.drop 3).length = k := by
      rw [List.length_drop]
      omega
    have hb := Text.of_digits_lt fun c hc => h c (List.mem_of_mem_drop (i := 3) hc)
    have hv : ofDigits ds = ofDigits (ds.take 3) * 10 ^ k + ofDigits (ds.drop 3) := by
      rw [← hr, ← Text.of_digits_append, hd]
    rw [hr] at hb
    have hc : 1000 * ofDigits ds / 10 ^ ds.length = ofDigits ds / 10 ^ k := by
      rw [hk, Nat.pow_add]
      exact Nat.mul_div_mul_left _ _ (by decide)
    rw [milliseconds, List.take_append_of_le_length (by omega), hc, hv, Nat.mul_comm,
      Nat.mul_add_div (Nat.pow_pos (by decide)), Nat.div_eq_of_lt hb, Nat.add_zero]

theorem padded_split {width m n : Nat} (hw : 0 < width) (hm : m < 10 ^ width)
    (hn : n < 10 ^ width) {us vs : List Char}
    (h : (paddedNumeral width m).toList ++ us = (paddedNumeral width n).toList ++ vs) :
    m = n ∧ us = vs := by
  have hl := (padded_length hw hm).trans (padded_length hw hn).symm
  obtain ⟨hp, hr⟩ := List.append_inj h hl
  exact ⟨padded_injective hp, hr⟩

theorem fraction_injective {ds es r s : List Char} (hd : ∀ c ∈ ds, isDigit c = true)
    (he : ∀ c ∈ es, isDigit c = true) (hr : Behind ds r) (hs : Behind es s)
    (h : fractionChars ds ++ r = fractionChars es ++ s) : ds = es ∧ r = s := by
  by_cases hn : ds = []
  · by_cases hm : es = []
    · subst hn hm
      exact ⟨rfl, h⟩
    · simp only [fractionChars, hn, hm, if_true, if_false, List.nil_append, List.cons_append] at h
      have hp := hr '.' (by rw [h]; rfl)
      rw [if_pos hn] at hp
      exact absurd rfl hp
  · by_cases hm : es = []
    · simp only [fractionChars, hn, hm, if_true, if_false, List.nil_append, List.cons_append] at h
      have hp := hs '.' (by rw [← h]; rfl)
      rw [if_pos hm] at hp
      exact absurd rfl hp
    · simp only [fractionChars, hn, hm, if_false, List.cons_append, List.cons.injEq,
        true_and] at h
      have ht := take_run hd (fun c hc => by simpa [hn] using hr c hc)
      have hu := take_run he (fun c hc => by simpa [hm] using hs c hc)
      rw [h, hu] at ht
      subst ht
      exact ⟨rfl, List.append_cancel_left h⟩

theorem zone_injective {z w : Zone} (hz : z.Spelled) (hw : w.Spelled) (h : z.chars = w.chars) :
    z = w := by
  cases z with
  | utc mark =>
    cases w with
    | utc mark' => rw [List.singleton_inj.mp h]
    | apart sign hours minutes =>
      have hl := congrArg List.length h
      simp [Zone.chars] at hl
  | apart sign hours minutes =>
    cases w with
    | utc mark =>
      have hl := congrArg List.length h
      simp [Zone.chars] at hl
    | apart sign' hours' minutes' =>
      simp only [Zone.chars, List.cons_append, List.cons.injEq] at h
      obtain ⟨hc, h⟩ := h
      obtain ⟨hh, h⟩ := padded_split (by decide) hz.2.1 hw.2.1 h
      rw [hc, hh, padded_injective (List.cons.inj h).2]

theorem zoned_injective {z w : Zoned} (hz : z.Spelled) (hw : w.Spelled)
    (h : z.chars = w.chars) : z = w := by
  simp only [Zoned.chars] at h
  obtain ⟨h1, h⟩ := padded_split (by decide) hz.year hw.year h
  obtain ⟨h2, h⟩ := padded_split (by decide) hz.month hw.month (List.cons.inj h).2
  obtain ⟨h3, h⟩ := padded_split (by decide) hz.day hw.day (List.cons.inj h).2
  obtain ⟨h4, h⟩ := List.cons.inj h
  obtain ⟨h5, h⟩ := padded_split (by decide) hz.hour hw.hour h
  obtain ⟨h6, h⟩ := padded_split (by decide) hz.minute hw.minute (List.cons.inj h).2
  obtain ⟨h7, h⟩ := padded_split (by decide) hz.second hw.second (List.cons.inj h).2
  obtain ⟨h8, h⟩ := fraction_injective hz.fraction hw.fraction (zone_behind _ hz.zone _)
    (zone_behind _ hw.zone _) h
  exact Zoned.ext h1 h2 h3 h4 h5 h6 h7 h8 (zone_injective hz.zone hw.zone h)

namespace Zoned

/-- The text is what the time is spelled as, with or without blanks around it. -/
def Spells (z : Zoned) (s : String) : Prop :=
  z.Spelled ∧ Text.trimChars s.toList = z.chars

/-- The minutes of the offset lead, backwards, to this point. -/
structure InUtc (z : Zoned) (u : DateTime) : Prop where
  valid : u.Valid
  apart : z.point.Apart u (-z.zone.east)

end Zoned

theorem in_utc_iff {z : Zoned} (hs : z.Spelled) (ha : z.Accepted) (u : DateTime) :
    z.InUtc u ↔ u = z.point.addMinutes (-z.zone.east) := by
  constructor
  · rintro ⟨hv, h⟩
    exact DateTime.apart_added ha.point.toProper hv.toProper h
  · rintro rfl
    exact ⟨zoned_valid hs ha, DateTime.added_apart ha.point.toProper _⟩

/-- What a time with an offset is spelled as is read as that time in UTC, or not at all. -/
theorem spells_read {z : Zoned} {s : String} (h : z.Spells s) (p : Stamp) :
    Stamp.read s = some p ↔ z.Accepted ∧ .point (z.point.addMinutes (-z.zone.east)) = p := by
  obtain ⟨hs, hc⟩ := h
  have hm := zoned_marks hs
  cases p with
  | point t =>
    rw [Stamp.read_point, hc, with_offset_iff, Stamp.point.injEq]
    constructor
    · rintro (⟨w, hw, ha, he, ht⟩ | h)
      · obtain rfl := zoned_injective hw hs he
        exact ⟨ha, ht⟩
      · have h2 := (without_offset_read h).2
        omega
    · rintro ⟨ha, ht⟩
      exact .inl ⟨z, hs, ha, rfl, ht⟩
  | day d =>
    rw [Stamp.read_bare, hc]
    constructor
    · intro h
      have h0 := (bare_date_read h).2
      omega
    · rintro ⟨-, h⟩
      cases h

theorem spells_start {z : Zoned} {s : String} (h : z.Spells s) (t : String) :
    startText s = some t ↔
      z.Accepted ∧ (z.point.addMinutes (-z.zone.east)).render = t := by
  simp only [startText, Option.map_eq_some_iff, spells_read h]
  constructor
  · rintro ⟨_, ⟨ha, rfl⟩, ht⟩
    exact ⟨ha, ht⟩
  · rintro ⟨ha, ht⟩
    exact ⟨_, ⟨ha, rfl⟩, ht⟩

def Zone.zero : List Zone :=
  [.utc 'Z', .utc 'z', .apart '+' 0 0, .apart '-' 0 0]

example : Zone.zero.map (fun a => String.ofList a.chars) = ["Z", "z", "+00:00", "-00:00"] := by
  decide

theorem zero_east {a : Zone} (h : a ∈ Zone.zero) : a.InRange ∧ a.east = 0 := by
  simp only [Zone.zero, List.mem_cons, List.not_mem_nil, or_false] at h
  rcases h with rfl | rfl | rfl | rfl <;> simp [Zone.InRange, Zone.east]

/-- The texts with an offset are those that accepted times are spelled as. Their store form is
that of the point in UTC, which has the same one in the layout without an offset, with all digits
of the fraction. Two of them have one store form just if they have one point in UTC to the
millisecond, and it does not matter how UTC is named. -/
theorem offsets_converted :
    (∀ s : String, (withOffset (Text.trimChars s.toList)).isSome ↔
      ∃ z : Zoned, z.Spells s ∧ z.Accepted) ∧
    (∀ (z : Zoned) (s : String), z.Spells s →
      ((startText s).isSome ↔ z.Accepted) ∧
      z.point.milli = 1000 * ofDigits z.fraction / 10 ^ z.fraction.length ∧
      (z.Accepted → ∃ u, z.InUtc u) ∧
      ∀ u, z.Accepted → z.InUtc u →
        startText s = some u.render ∧ startText s = startText (u.naive z.fraction)) ∧
    (∀ (z w : Zoned) (s r : String) (u v : DateTime), z.Spells s → w.Spells r → z.Accepted →
      w.Accepted → z.InUtc u → w.InUtc v → (startText s = startText r ↔ u = v)) ∧
    (∀ z : Zoned, ∀ a ∈ Zone.zero, ∀ b ∈ Zone.zero, ∀ s r : String,
      { z with zone := a }.Spells s → { z with zone := b }.Spells r →
        startText s = startText r) := by
  refine ⟨fun s => ?_, fun z s h => ⟨?_, milliseconds_cut h.1.fraction, fun ha => ?_,
    fun u ha hu => ?_⟩, fun z w s r u v hz hw az aw hu hv => ?_, fun z a ha b hb s r hs hr => ?_⟩
  · rw [Option.isSome_iff_exists]
    simp only [with_offset_iff]
    constructor
    · rintro ⟨_, z, hs, ha, hc, -⟩
      exact ⟨z, ⟨hs, hc.symm⟩, ha⟩
    · rintro ⟨z, ⟨hs, hc⟩, ha⟩
      exact ⟨_, z, hs, ha, hc.symm, rfl⟩
  · rw [Option.isSome_iff_exists]
    simp only [spells_start h]
    exact ⟨fun ⟨_, ha, _⟩ => ha, fun ha => ⟨_, ha, rfl⟩⟩
  · exact ⟨_, (in_utc_iff h.1 ha _).mpr rfl⟩
  · have hv := hu.valid
    obtain rfl := (in_utc_iff h.1 ha u).mp hu
    have hs := (spells_start h _).mpr ⟨ha, rfl⟩
    have hn := naive_read hv h.1.fraction
    refine ⟨hs, ?_⟩
    rw [hs, startText, hn]
    rfl
  · have vu := hu.valid
    have vv := hv.valid
    rw [in_utc_iff hz.1 az] at hu
    rw [in_utc_iff hw.1 aw] at hv
    rw [(spells_start hz _).mpr ⟨az, rfl⟩, (spells_start hw _).mpr ⟨aw, rfl⟩, ← hu, ← hv,
      Option.some.injEq]
    exact ⟨render_injective vu vv, congrArg DateTime.render⟩
  · obtain ⟨ra, ea⟩ := zero_east ha
    obtain ⟨rb, eb⟩ := zero_east hb
    have hab : ({ z with zone := a } : Zoned).Accepted ↔
        ({ z with zone := b } : Zoned).Accepted :=
      ⟨fun h => ⟨h.point, rb⟩, fun h => ⟨h.point, ra⟩⟩
    apply Option.ext
    intro t
    rw [spells_start hs, spells_start hr, hab]
    simp only [ea, eb]
    rfl

theorem leap_second_converted : ∃ (z w : Zoned) (u : DateTime),
    z.Spells " 9999-12-31t23:59:60.9999-00:01" ∧ z.Accepted ∧ z.InUtc u ∧
    w.Spells "9999-12-31 22:00:60.999-02:00" ∧ w.Accepted ∧ w.InUtc u ∧
    u.render = "+10000-01-01 00:00:60.999" ∧
    startText " 9999-12-31t23:59:60.9999-00:01" = some u.render ∧
    startText "9999-12-31 22:00:60.999-02:00" = some u.render ∧
    startText "9999-12-31t23:59:60.9999z" = startText "9999-12-31t23:59:60.9999-00:00" := by
  let z : Zoned := ⟨9999, 12, 31, 't', 23, 59, 60, ['9', '9', '9', '9'], .apart '-' 0 1⟩
  let w : Zoned := ⟨9999, 12, 31, ' ', 22, 0, 60, ['9', '9', '9'], .apart '-' 2 0⟩
  let u : DateTime := ⟨⟨10000, 1, 1⟩, 0, 0, 60, 999⟩
  obtain ⟨-, single, same, zero⟩ := offsets_converted
  have hz : z.Spells " 9999-12-31t23:59:60.9999-00:01" :=
    ⟨⟨by decide, by decide, by decide, by decide, by decide, by decide, by decide,
      List.all_eq_true.mp (by decide), ⟨by decide, by decide, by decide⟩⟩, by decide +kernel⟩
  have hw : w.Spells "9999-12-31 22:00:60.999-02:00" :=
    ⟨⟨by decide, by decide, by decide, by decide, by decide, by decide, by decide,
      List.all_eq_true.mp (by decide), ⟨by decide, by decide, by decide⟩⟩, by decide +kernel⟩
  have az : z.Accepted :=
    ⟨DateTime.valid_clock (by decide) (by decide) (by decide), by decide, by decide⟩
  have aw : w.Accepted :=
    ⟨DateTime.valid_clock (by decide) (by decide) (by decide), by decide, by decide⟩
  have uz : z.InUtc u := (in_utc_iff hz.1 az u).mpr (by decide)
  have uw : w.InUtc u := (in_utc_iff hw.1 aw u).mpr (by decide)
  have hu := ((single z _ hz).2.2.2 u az uz).1
  have rezoned (a : Zone) (ha : a.Spelled) : ({ z with zone := a } : Zoned).Spelled :=
    ⟨hz.1.year, hz.1.month, hz.1.day, hz.1.mark, hz.1.hour, hz.1.minute, hz.1.second,
      hz.1.fraction, ha⟩
  refine ⟨z, w, u, hz, az, uz, hw, aw, uw, by decide, hu, ?_, ?_⟩
  · rw [← hu]
    exact (same w z _ _ u u hw hz aw az uw uz).mpr rfl
  · exact zero z (.utc 'z') (by decide) (.apart '-' 0 0) (by decide) _ _
      ⟨rezoned _ (.inr rfl), by decide +kernel⟩
      ⟨rezoned _ ⟨by decide, by decide, by decide⟩, by decide +kernel⟩

end CohortQuery.Time
