import PartitionPruning.Calendar.Pattern
import PartitionPruning.Proofs.Text.Digits

/-! The texts of dates and timestamps are read back, by the first pattern of each. Every part of a
text is read as far as it goes, whatever follows it. -/

namespace PartitionPruning

/-! ### Numbers -/

/-- Digits are read up to the width, or up to what follows them if it is no digit. -/
theorem readUpTo?_append {width : Nat} {ds rest : List Char} (hds : ∀ c ∈ ds, c.isDigit = true)
    (hne : ds ≠ []) (hlen : ds.length ≤ width)
    (hrest : ∀ c, (rest.take (width - ds.length)).head? = some c → c.isDigit = false) :
    readUpTo? width (ds ++ rest) = some (readDigits 0 ds, rest) := by
  have hspan := congrArg Prod.fst (spanDigits_append hds hrest)
  have htake : (ds ++ rest).take width = ds ++ rest.take (width - ds.length) := by
    rw [List.take_append, List.take_of_length_le hlen]
  rw [readUpTo?, htake]
  simp only [spanDigits] at hspan
  rw [hspan, if_neg hne, List.drop_left]

theorem skipBlanks_paddedDigits {width n : Nat} (rest : List Char) (h : 0 < width) :
    skipBlanks (paddedDigits width n ++ rest) = paddedDigits width n ++ rest :=
  skipBlanks_append rest (fun _ => isBlank_of_mem_paddedDigits) (paddedDigits_ne_nil n h)

theorem readUpTo?_skipBlanks {n : Nat} (rest : List Char) (h : n < 10 ^ 2) :
    readUpTo? 2 (skipBlanks (paddedDigits 2 n ++ rest)) = some (n, rest) := by
  have hlen := length_paddedDigits Nat.two_pos h
  rw [skipBlanks_paddedDigits _ Nat.two_pos,
    readUpTo?_append (fun c hc => isDigit_of_mem_paddedDigits hc)
      (List.ne_nil_of_length_pos (by omega)) (Nat.le_of_eq hlen) (by simp [hlen]),
    readDigits_paddedDigits]

theorem readExactly?_paddedDigits {width n : Nat} (rest : List Char) (hwidth : 0 < width)
    (h : n < 10 ^ width) : readExactly? width (paddedDigits width n ++ rest) = some (n, rest) := by
  have hlen := length_paddedDigits hwidth h
  have hdigits : ((paddedDigits width n ++ rest).take width).takeWhile Char.isDigit =
      paddedDigits width n := by
    rw [List.take_left' hlen]
    exact congrArg Prod.fst (spanDigits_of_digits fun c hc => isDigit_of_mem_paddedDigits hc)
  rw [readExactly?, hdigits, if_pos hlen, readDigits_paddedDigits, List.drop_left' hlen]

theorem readYear?_of_digit {c : Char} {cs : List Char} (h : c.isDigit = true) :
    readYear? (c :: cs) = (readUpTo? 4 (c :: cs)).map fun (n, rest) => ((n : Int), rest) := by
  unfold readYear?
  split
  · rename_i heq
    rw [(List.cons.inj heq).1] at h
    exact absurd h (by decide)
  · rename_i heq
    rw [(List.cons.inj heq).1] at h
    exact absurd h (by decide)
  · rfl

/-- A year is read back, with or without a sign, as long as no digit follows it. -/
theorem readYear?_renderYear (year : Int) (rest : List Char) :
    readYear? (renderYear year ++ '-' :: rest) = some (year, '-' :: rest) := by
  unfold renderYear
  split
  · rename_i hrange
    have hsmall : year.natAbs < 10 ^ 4 := by omega
    obtain ⟨c, cs, hcs, hc⟩ := exists_paddedDigits year.natAbs (by decide : 0 < 4)
    have hlen := length_paddedDigits (by decide) hsmall
    have hread : readUpTo? 4 (paddedDigits 4 year.natAbs ++ '-' :: rest) =
        some (year.natAbs, '-' :: rest) := by
      rw [readUpTo?_append (fun c hc => isDigit_of_mem_paddedDigits hc)
        (List.ne_nil_of_length_pos (by omega)) (Nat.le_of_eq hlen) (by simp [hlen]),
        readDigits_paddedDigits]
    rw [hcs, List.cons_append] at hread ⊢
    rw [readYear?_of_digit hc, hread, Option.map_some]
    simp only [Option.some.injEq, Prod.mk.injEq, and_true]
    omega
  · rename_i hrange
    have hread : readUpTo? (paddedDigits 4 year.natAbs ++ '-' :: rest).length
        (paddedDigits 4 year.natAbs ++ '-' :: rest) = some (year.natAbs, '-' :: rest) := by
      have hpos := le_length_paddedDigits 4 year.natAbs
      rw [readUpTo?_append (fun c hc => isDigit_of_mem_paddedDigits hc)
        (List.ne_nil_of_length_pos (by omega)) (by simp), readDigits_paddedDigits]
      intro c hc
      rw [List.head?_take] at hc
      split at hc
      · simp at hc
      · obtain rfl := Option.some.inj hc
        decide
    split
    · rename_i hneg
      rw [List.cons_append, readYear?, hread, Option.map_some]
      simp only [Option.some.injEq, Prod.mk.injEq, and_true]
      omega
    · rename_i hpos
      rw [List.cons_append, readYear?, hread, Option.map_some]
      simp only [Option.some.injEq, Prod.mk.injEq, and_true]
      omega

theorem readFraction?_renderFraction {nano : Nat} (h : nano < 10 ^ 9) :
    readFraction? (renderFraction nano) = some (nano, []) := by
  have hread {width n : Nat} (hwidth : 0 < width) (hle : width ≤ 9) (hn : n < 10 ^ width) :
      readFraction? ('.' :: paddedDigits width n) = some (n * 10 ^ (9 - width), []) := by
    have hlen := length_paddedDigits hwidth hn
    rw [readFraction?, readNanos?,
      spanDigits_of_digits fun c hc => isDigit_of_mem_paddedDigits hc]
    dsimp only
    rw [if_neg (List.ne_nil_of_length_pos (by omega)), List.take_of_length_le (by omega), hlen,
      readDigits_paddedDigits]
  unfold renderFraction
  split
  · rename_i hzero
    rw [hzero]
    rfl
  · split
    · have hvalue : nano / 1000000 * 10 ^ 6 = nano := by omega
      rw [hread (by decide) (by decide) (by omega), hvalue]
    · split
      · have hvalue : nano / 1000 * 10 ^ 3 = nano := by omega
        rw [hread (by decide) (by decide) (by omega), hvalue]
      · rw [hread (by decide) (by decide) h, Nat.pow_zero, Nat.mul_one]

/-! ### White space -/

theorem renderYear_ne_nil (year : Int) : renderYear year ≠ [] := by
  unfold renderYear
  split
  · exact paddedDigits_ne_nil _ (by decide)
  · exact List.cons_ne_nil _ _

theorem isBlank_of_mem_renderYear {year : Int} {c : Char} (h : c ∈ renderYear year) :
    isBlank c = false := by
  unfold renderYear at h
  split at h
  · exact isBlank_of_mem_paddedDigits h
  · rcases List.mem_cons.mp h with rfl | h
    · split <;> decide
    · exact isBlank_of_mem_paddedDigits h

theorem isBlank_of_mem_renderFraction {nano : Nat} {c : Char} (h : c ∈ renderFraction nano) :
    isBlank c = false := by
  have hpoint {width n : Nat} (h : c ∈ '.' :: paddedDigits width n) : isBlank c = false := by
    rcases List.mem_cons.mp h with rfl | h
    · decide
    · exact isBlank_of_mem_paddedDigits h
  unfold renderFraction at h
  split at h
  · contradiction
  · split at h
    · exact hpoint h
    · split at h <;> exact hpoint h

namespace Date

variable {d : Date}

theorem render_ne_nil (d : Date) : d.render ≠ [] :=
  List.append_ne_nil_of_right_ne_nil _ (List.cons_ne_nil _ _)

theorem isBlank_of_mem_render {c : Char} (h : c ∈ d.render) : isBlank c = false := by
  simp only [render, List.mem_append, List.mem_cons] at h
  rcases h with (h | rfl | h) | rfl | h
  · exact isBlank_of_mem_renderYear h
  · decide
  · exact isBlank_of_mem_paddedDigits h
  · decide
  · exact isBlank_of_mem_paddedDigits h

end Date

theorem Time.render_ne_nil (t : Time) : t.render ≠ [] :=
  List.append_ne_nil_of_left_ne_nil (List.append_ne_nil_of_right_ne_nil _ (List.cons_ne_nil _ _)) _

theorem Time.isBlank_of_mem_render {t : Time} {c : Char} (h : c ∈ t.render) :
    isBlank c = false := by
  simp only [render, List.mem_append, List.mem_cons] at h
  rcases h with (((h | rfl | h) | rfl | h) | h)
  · exact isBlank_of_mem_paddedDigits h
  · decide
  · exact isBlank_of_mem_paddedDigits h
  · decide
  · exact isBlank_of_mem_paddedDigits h
  · exact isBlank_of_mem_renderFraction h

theorem Date.trimBlanks_render (d : Date) : trimBlanks d.render = d.render :=
  trimBlanks_eq_self fun _ => isBlank_of_mem_render

theorem Timestamp.trimBlanks_render (t : Timestamp) : trimBlanks t.render = t.render :=
  trimBlanks_append [' '] (fun _ => Date.isBlank_of_mem_render)
    (fun _ => Time.isBlank_of_mem_render) t.date.render_ne_nil t.time.render_ne_nil

/-! ### Fields of patterns -/

theorem Date.month_lt (d : Date) : d.month < 10 ^ 2 := by
  have := d.month_mem
  omega

theorem Date.day_lt (d : Date) : d.day < 10 ^ 2 := by
  have hle : daysInMonth d.year d.month ≤ 31 := by
    unfold daysInMonth
    split
    · split <;> decide
    all_goals decide
  have := d.day_mem
  omega

theorem Time.fields_lt (t : Time) : t.hour < 10 ^ 2 ∧ t.minute < 10 ^ 2 ∧ t.second < 10 ^ 2 := by
  have := t.hour_lt
  have := t.minute_lt
  have := t.second_le
  omega

namespace PatternField

theorem readAll?_cons {p q : DateParts} {f : PatternField} {fs : Pattern} {cs rest : List Char}
    (h : f.read? p cs = some (q, rest)) : readAll? p (f :: fs) cs = readAll? q fs rest := by
  rw [readAll?, h, Option.bind_some]

theorem read?_char (p : DateParts) (c : Char) (rest : List Char) :
    (char c).read? p (c :: rest) = some (p, rest) := by
  simp [read?]

end PatternField

open PatternField

/-- The text of a date gives its year, its month and its day, whatever follows it. -/
theorem readAll?_isoDate (d : Date) (fs : Pattern) (rest : List Char) :
    readAll? {} (Pattern.isoDate ++ fs) (d.render ++ rest) =
      readAll? { year := d.year, month := d.month, day := d.day } fs rest := by
  simp only [Pattern.isoDate, Date.render, List.append_assoc, List.cons_append, List.nil_append]
  rw [readAll?_cons (q := { year := d.year }), readAll?_cons (read?_char _ _ _),
    readAll?_cons (q := { year := d.year, month := d.month }), readAll?_cons (read?_char _ _ _),
    readAll?_cons (q := { year := d.year, month := d.month, day := d.day })]
  · rw [read?, readUpTo?_skipBlanks _ d.day_lt, Option.map_some]
  · rw [read?, readUpTo?_skipBlanks _ d.month_lt, Option.map_some]
  · rw [read?, skipBlanks_append _ (fun _ => isBlank_of_mem_renderYear) (renderYear_ne_nil _),
      readYear?_renderYear, Option.map_some]

/-- A time of day up to its whole seconds. -/
def Time.renderClock (t : Time) : List Char :=
  paddedDigits 2 t.hour ++ ':' :: paddedDigits 2 t.minute ++ ':' :: paddedDigits 2 t.second

theorem readAll?_clock (p : DateParts) (t : Time) (fs : Pattern) (rest : List Char) :
    readAll? p (Pattern.clock ++ fs) (t.renderClock ++ rest) =
      readAll? { p with hour := t.hour, minute := t.minute, second := t.second } fs rest := by
  obtain ⟨hhour, hminute, hsecond⟩ := t.fields_lt
  simp only [Pattern.clock, Time.renderClock, List.append_assoc, List.cons_append,
    List.nil_append]
  rw [readAll?_cons (q := { p with hour := t.hour }), readAll?_cons (read?_char _ _ _),
    readAll?_cons (q := { p with hour := t.hour, minute := t.minute }),
    readAll?_cons (read?_char _ _ _),
    readAll?_cons (q := { p with hour := t.hour, minute := t.minute, second := t.second })]
  · rw [read?, readUpTo?_skipBlanks _ hsecond, Option.map_some]
  · rw [read?, readUpTo?_skipBlanks _ hminute, Option.map_some]
  · rw [read?, readUpTo?_skipBlanks _ hhour, Option.map_some]

/-! ### Dates and timestamps -/

theorem readDate?_render (d : Date) : readDate? d.render = some d := by
  have hread := readAll?_isoDate d [] []
  rw [List.append_nil, List.append_nil] at hread
  have hdate : Pattern.isoDate.date? d.render = some d := by
    rw [Pattern.date?, hread]
    exact d.of?_self
  rw [readDate?, Pattern.datePatterns, List.findSome?_cons, hdate]

theorem timestamp?_render (t : Timestamp) :
    Pattern.timestamp? (Pattern.isoDate ++ blanks :: Pattern.clock ++ [fraction]) t.render =
      some t := by
  have hpattern : Pattern.isoDate ++ blanks :: Pattern.clock ++ [fraction] =
      Pattern.isoDate ++ blanks :: (Pattern.clock ++ [fraction]) := rfl
  have htext : t.render =
      t.date.render ++ ' ' :: (t.time.renderClock ++ renderFraction t.time.nano) := rfl
  have hblank (p : DateParts) (rest : List Char) :
      blanks.read? p (' ' :: (t.time.renderClock ++ rest)) =
        some (p, t.time.renderClock ++ rest) := by
    rw [read?, skipBlanks, List.dropWhile_cons_of_pos (by decide)]
    simp only [Time.renderClock, List.append_assoc]
    exact congrArg (fun cs => some (p, cs)) (skipBlanks_paddedDigits _ Nat.two_pos)
  have hfraction (p : DateParts) : fraction.read? p (renderFraction t.time.nano) =
      some ({ p with nano := t.time.nano }, []) := by
    rw [read?, readFraction?_renderFraction t.time.nano_lt, Option.map_some]
  rw [Pattern.timestamp?, hpattern, htext, readAll?_isoDate, readAll?_cons (hblank _ _),
    readAll?_clock, readAll?_cons (hfraction _), readAll?, Option.bind_some,
    DateParts.timestamp?, DateParts.date?, t.date.of?_self, t.time.of?_self]

theorem expectChar?_self (c : Char) (rest : List Char) : expectChar? c (c :: rest) = some rest :=
  if_pos rfl

theorem bind_eq_none_of_some {α β : Type} {x : Option α} {f : α → Option β} {a : α}
    (h : x = some a) (hf : f a = none) : (x >>= f) = none := by
  rw [h]
  exact hf

/-- A text without an offset from UTC at its end is no timestamp with an offset. -/
theorem readZoned?_render (t : Timestamp) : readZoned? t.render = none := by
  obtain ⟨hhour, hminute, hsecond⟩ := t.time.fields_lt
  have hread {n : Nat} (rest : List Char) (h : n < 10 ^ 2) :=
    readExactly?_paddedDigits rest Nat.two_pos h
  have hfraction := readFraction?_renderFraction t.time.nano_lt
  simp only [Timestamp.render, Date.render, Time.render, renderYear, List.append_assoc,
    List.cons_append]
  split
  · -- All of a text with a year of four digits is read, and nothing is left for the offset.
    have hyear : t.date.year.natAbs < 10 ^ 4 := by omega
    refine bind_eq_none_of_some (readExactly?_paddedDigits _ (by decide) hyear) ?_
    refine bind_eq_none_of_some (expectChar?_self '-' _) ?_
    refine bind_eq_none_of_some (hread _ t.date.month_lt) ?_
    refine bind_eq_none_of_some (expectChar?_self '-' _) ?_
    refine bind_eq_none_of_some (hread _ t.date.day_lt) ?_
    refine bind_eq_none_of_some rfl ?_
    refine bind_eq_none_of_some (hread _ hhour) ?_
    refine bind_eq_none_of_some (expectChar?_self ':' _) ?_
    refine bind_eq_none_of_some (hread _ hminute) ?_
    refine bind_eq_none_of_some (expectChar?_self ':' _) ?_
    refine bind_eq_none_of_some (hread _ hsecond) ?_
    exact bind_eq_none_of_some hfraction rfl
  · -- A year with a sign is not one of four digits.
    have hsign (cs : List Char) :
        readExactly? 4 ((if t.date.year < 0 then '-' else '+') :: cs) = none := by
      split <;> rfl
    rw [readZoned?, List.cons_append, hsign]
    rfl

theorem readTimestamp?_render (t : Timestamp) : readTimestamp? t.render = some t := by
  rw [readTimestamp?, readZoned?_render, Pattern.timestampPatterns, List.findSome?_cons,
    timestamp?_render]
  rfl

end PartitionPruning
