import PeerLink.Proofs.Log.Columns

/-!
# Components that were recorded in quotes

An event can name the part of the program that speaks by a text, or by the quoted form of a text.
The line then loses the quotes around it, as if the text itself had been recorded.  But it keeps
what quoting has done to the characters in between, and a quote at the end of the text goes with
those around it, which leaves its backslash behind.

So both ways of recording give the same line if quoting changes no character of the text, and
besides only where the column is too narrow to show the difference: a backslash is quoted by a
backslash before it, so that as long as nothing but backslashes follow the first of them, both
texts look the same.

## Main results

* `Text.trimChar_quote` — what trimming leaves of a quoted text.
* `Text.startsAlike_of_take` — how far that looks like the text itself.
* `Log.column_bared_iff` — when a column shows it as the text itself.
* `Log.quoted_component_shows_iff` — when both ways of recording give the same line.
* `Log.closing_quote_becomes_backslash` — a text that ends with a quote.
-/

namespace PeerLink.Text

/-! ## What is left of a quoted text -/

/-- Quoting leaves every character of the text as it is. -/
def IsPlain (s : List Char) : Prop := ∀ c ∈ s, escapeChar c = [c]

/-- A quoted text without any quotes at its ends: the text with its characters escaped, but for a
quote at its end, of which only the backslash stands. -/
def bared (s : List Char) : List Char :=
  if s.getLast? = some '\x22' then s.dropLast.flatMap escapeChar ++ ['\\']
  else s.flatMap escapeChar

/-- A character stands as it is, or as several that begin with a backslash and do not end with a
quote, unless it is one. -/
theorem escapeChar_cases (c : Char) :
    escapeChar c = [c] ∧ c ≠ '\\' ∧ c ≠ '\x22' ∨
      ∃ d, escapeChar c = '\\' :: d ∧ d ≠ [] ∧ (d.getLast? = some '\x22' → c = '\x22') := by
  unfold escapeChar
  repeat' split
  · exact .inr ⟨_, rfl, by simp, by simp⟩
  · exact .inr ⟨_, rfl, by simp, by simp⟩
  · exact .inr ⟨_, rfl, by simp, by simp⟩
  · exact .inr ⟨_, rfl, by simp, by simp⟩
  · exact .inr ⟨_, rfl, by simp, by simp⟩
  · refine .inr ⟨_, rfl, by simp, fun hlast => ?_⟩
    rw [codePoint, ← List.cons_append, List.getLast?_concat] at hlast
    cases hlast
  · rename_i hother _
    rw [not_or] at hother
    exact .inl ⟨rfl, hother.1, hother.2⟩

theorem escapeChar_backslash : escapeChar '\\' = ['\\', '\\'] := by decide

theorem escapeChar_quote : escapeChar '\x22' = ['\\', '\x22'] := by decide

/-- An escaped text does not begin with a quote. -/
theorem head?_escaped (s : List Char) : (s.flatMap escapeChar).head? ≠ some '\x22' := by
  cases s with
  | nil => simp
  | cons c s =>
      rcases escapeChar_cases c with ⟨hplain, -, hquote⟩ | ⟨d, hescaped, -, -⟩
      · simpa [hplain] using hquote
      · simp [hescaped]

/-- An escaped text ends with a quote only if the text does. -/
theorem getLast?_escaped {s : List Char} (h : (s.flatMap escapeChar).getLast? = some '\x22') :
    s.getLast? = some '\x22' := by
  rcases List.eq_nil_or_concat s with rfl | ⟨s, c, rfl⟩
  · simp at h
  · rw [List.concat_eq_append] at h ⊢
    rw [List.getLast?_concat]
    rcases escapeChar_cases c with ⟨hplain, -, -⟩ | ⟨d, hescaped, hd, hlast⟩
    · simpa [hplain] using h
    · obtain ⟨x, d, rfl⟩ := List.exists_cons_of_ne_nil hd
      simp only [List.flatMap_append, List.flatMap_cons, List.flatMap_nil, List.append_nil,
        hescaped, List.getLast?_append, List.getLast?_cons_cons] at h
      rw [hlast (by simpa using h)]

theorem dropWhile_of_head? {c : Char} {s : List Char} (h : s.head? ≠ some c) :
    s.dropWhile (· == c) = s := by
  cases s with
  | nil => rfl
  | cons x s =>
      have hx : (x == c) = false := by simpa using h
      rw [List.dropWhile_cons, hx]
      rfl

/-- Of a text between two marks, trimming takes the marks, and more of them only at its end. -/
theorem trimChar_marked {c : Char} {s : List Char} (h : s.head? ≠ some c) :
    trimChar c (c :: s ++ [c]) = (s.reverse.dropWhile (· == c)).reverse := by
  have hfirst : (c :: s ++ [c]).dropWhile (· == c) = (s ++ [c]).dropWhile (· == c) := by
    simp
  unfold trimChar
  rw [hfirst]
  by_cases hs : s = []
  · simp [hs]
  · have hhead : (s ++ [c]).head? ≠ some c := by
      obtain ⟨x, t, rfl⟩ := List.exists_cons_of_ne_nil hs
      exact h
    rw [dropWhile_of_head? hhead, List.reverse_concat, List.dropWhile_cons]
    simp

theorem trimChar_quote (s : String) : trimChar '\x22' (quote s).toList = bared s.toList := by
  rw [toList_quote, trimChar_marked (head?_escaped s.toList)]
  by_cases hlast : s.toList.getLast? = some '\x22'
  · obtain ⟨t, ht⟩ := List.getLast?_eq_some_iff.1 hlast
    have hescaped : s.toList.flatMap escapeChar = t.flatMap escapeChar ++ ['\\', '\x22'] := by
      rw [ht, List.flatMap_append, List.flatMap_cons, List.flatMap_nil, escapeChar_quote,
        List.append_nil]
    rw [bared, if_pos hlast, hescaped, ht, List.dropLast_concat]
    simp
  · have hkept : (s.toList.flatMap escapeChar).reverse.head? ≠ some '\x22' := by
      rw [List.head?_reverse]
      exact fun h => hlast (getLast?_escaped h)
    rw [bared, if_neg hlast, dropWhile_of_head? hkept, List.reverse_reverse]

/-! ## How far it looks like the text itself -/

theorem bared_cons {c : Char} {s : List Char} (h : c ≠ '\x22' ∨ s ≠ []) :
    bared (c :: s) = escapeChar c ++ bared s := by
  unfold bared
  cases s with
  | nil =>
      have hc : c ≠ '\x22' := h.resolve_right fun hs => hs rfl
      simp [hc]
  | cons x s =>
      rw [List.getLast?_cons_cons]
      split <;> simp

theorem bared_cons_backslash (s : List Char) : bared ('\\' :: s) = '\\' :: '\\' :: bared s := by
  rw [bared_cons (.inl (by decide)), escapeChar_backslash]
  rfl

theorem bared_replicate (n : Nat) (s : List Char) :
    bared (List.replicate n '\\' ++ s) = List.replicate (n + n) '\\' ++ bared s := by
  induction n with
  | zero => rfl
  | succ n ih =>
      have hdouble : n + 1 + (n + 1) = n + n + 1 + 1 := by omega
      rw [List.replicate_succ, List.cons_append, bared_cons_backslash, ih, hdouble,
        List.replicate_succ, List.replicate_succ]
      rfl

theorem bared_append {p : List Char} (hp : IsPlain p) (s : List Char) :
    bared (p ++ s) = p ++ bared s := by
  induction p with
  | nil => rfl
  | cons c p ih =>
      have hc : escapeChar c = [c] := hp c List.mem_cons_self
      have hquote : c ≠ '\x22' := by
        rintro rfl
        rw [escapeChar_quote] at hc
        cases hc
      rw [List.cons_append, bared_cons (.inl hquote), hc,
        ih fun x hx => hp x (List.mem_cons_of_mem c hx)]
      rfl

theorem bared_of_isPlain {s : List Char} (h : IsPlain s) : bared s = s := by
  have happend := bared_append h []
  rwa [List.append_nil, show bared [] = [] from rfl, List.append_nil] at happend

/-- Baring a text makes it no shorter. -/
theorem length_le_bared (s : List Char) : s.length ≤ (bared s).length := by
  induction s with
  | nil => exact Nat.le_refl _
  | cons c s ih =>
      have hpos : 1 ≤ (escapeChar c).length := by
        rcases escapeChar_cases c with ⟨hplain, -, -⟩ | ⟨d, hescaped, -, -⟩
        · simp [hplain]
        · simp [hescaped]
      by_cases h : c ≠ '\x22' ∨ s ≠ []
      · rw [bared_cons h, List.length_cons, List.length_append]
        omega
      · rw [not_or, Classical.not_not, Classical.not_not] at h
        obtain ⟨rfl, rfl⟩ := h
        exact Nat.le_refl _

/-- The first `n` characters of a text are plain ones and, behind them, backslashes; then comes the
rest. -/
def StartsAlike (n : Nat) (s rest : List Char) : Prop :=
  ∃ (p : List Char) (j : Nat),
    s = p ++ (List.replicate j '\\' ++ rest) ∧ p.length + j = n ∧ IsPlain p

/-- A text that looks like itself with more backslashes before it has nothing but backslashes,
for as far as one looks. -/
private theorem eq_replicate_of_take {n m k : Nat} {s : List Char} (hm : 0 < m) (hk : n ≤ k)
    (h : (s ++ List.replicate k ' ').take n =
      (List.replicate m '\\' ++ (bared s ++ List.replicate k ' ')).take n) :
    ∃ r, s = List.replicate n '\\' ++ r := by
  induction s generalizing n m with
  | nil =>
      cases n with
      | zero => exact ⟨[], rfl⟩
      | succ n =>
          obtain ⟨m, rfl⟩ := Nat.exists_eq_succ_of_ne_zero (Nat.ne_of_gt hm)
          obtain ⟨k, rfl⟩ := Nat.exists_eq_succ_of_ne_zero (Nat.ne_of_gt (by omega : 0 < k))
          simp [List.replicate_succ] at h
  | cons c s ih =>
      cases n with
      | zero => exact ⟨c :: s, rfl⟩
      | succ n =>
          obtain ⟨m, rfl⟩ := Nat.exists_eq_succ_of_ne_zero (Nat.ne_of_gt hm)
          rw [List.replicate_succ, List.cons_append, List.cons_append, List.take_succ_cons,
            List.take_succ_cons] at h
          obtain ⟨rfl, hrest⟩ := List.cons.inj h
          have hmore : List.replicate m '\\' ++ (bared ('\\' :: s) ++ List.replicate k ' ') =
              List.replicate (m + 2) '\\' ++ (bared s ++ List.replicate k ' ') := by
            rw [bared_cons_backslash, ← List.replicate_append_replicate, List.append_assoc]
            rfl
          rw [hmore] at hrest
          obtain ⟨r, hr⟩ := ih (Nat.succ_pos _) (by omega) hrest
          exact ⟨r, by rw [List.replicate_succ, List.cons_append, ← hr]⟩

/-- A text that looks like its bared form for as far as one looks is plain, or goes over into
backslashes before one stops looking. -/
theorem startsAlike_of_take {n k : Nat} {s : List Char} (hk : n ≤ k)
    (h : (s ++ List.replicate k ' ').take n = (bared s ++ List.replicate k ' ').take n) :
    IsPlain s ∨ ∃ rest, StartsAlike n s rest := by
  induction s generalizing n with
  | nil => exact .inl fun c hc => by cases hc
  | cons c s ih =>
      cases n with
      | zero => exact .inr ⟨c :: s, [], 0, rfl, rfl, fun c hc => by cases hc⟩
      | succ n =>
          rcases escapeChar_cases c with ⟨hplain, -, hquote⟩ | ⟨d, hescaped, -, -⟩
          · rw [bared_cons (.inl hquote), hplain] at h
            simp only [List.cons_append, List.nil_append, List.take_succ_cons] at h
            rcases ih (by omega) (List.cons.inj h).2 with hs | ⟨rest, p, j, rfl, hn, hp⟩
            · exact .inl (List.forall_mem_cons.2 ⟨hplain, hs⟩)
            · refine .inr ⟨rest, c :: p, j, rfl, ?_, List.forall_mem_cons.2 ⟨hplain, hp⟩⟩
              rw [List.length_cons]
              omega
          · -- An escape begins with a backslash, so the text has to as well.
            have hc : c = '\\' := by
              by_cases hcons : c ≠ '\x22' ∨ s ≠ []
              · rw [bared_cons hcons, hescaped] at h
                exact (List.cons.inj h).1
              · rw [not_or, Classical.not_not, Classical.not_not] at hcons
                obtain ⟨rfl, rfl⟩ := hcons
                exact (List.cons.inj h).1
            subst hc
            rw [bared_cons_backslash] at h
            simp only [List.cons_append, List.take_succ_cons] at h
            obtain ⟨r, rfl⟩ := eq_replicate_of_take (m := 1) Nat.one_pos (by omega)
              (List.cons.inj h).2
            exact .inr ⟨r, [], n + 1, rfl, Nat.zero_add _, fun c hc => by cases hc⟩

/-- That is as far as the text looks like its bared form. -/
theorem StartsAlike.bared_eq {n : Nat} {s rest : List Char} (h : StartsAlike n s rest) :
    s.take n ++ rest = s ∧ (s.take n).length = n ∧
      ∃ j, bared s = s.take n ++ (List.replicate j '\\' ++ bared rest) ∧
        (j = 0 → IsPlain (s.take n)) := by
  obtain ⟨p, j, rfl, hn, hp⟩ := h
  have hlength : (p ++ List.replicate j '\\').length = n := by simpa using hn
  have htake : (p ++ (List.replicate j '\\' ++ rest)).take n = p ++ List.replicate j '\\' := by
    rw [← List.append_assoc, ← hlength, List.take_left]
  rw [htake]
  refine ⟨List.append_assoc _ _ _, hlength, j, ?_, fun hj => ?_⟩
  · rw [bared_append hp, bared_replicate, ← List.replicate_append_replicate]
    simp only [List.append_assoc]
  · rw [hj, List.replicate_zero, List.append_nil]
    exact hp

end PeerLink.Text

namespace PeerLink.Log

open Text

/-! ## Columns -/

theorem column_append {width : Nat} {p s : List Char} (h : p.length < width) :
    column width (p ++ s) = p ++ column (width - p.length) s := by
  have htake : (p ++ s).take (width - 1) = p ++ s.take (width - p.length - 1) := by
    rw [List.take_append, List.take_of_length_le (by omega), Nat.sub_right_comm]
  unfold column pad
  rw [List.length_append, htake, Nat.sub_add_eq]
  by_cases hs : width - p.length < s.length
  · rw [if_pos hs, if_pos (by omega), List.append_assoc]
  · rw [if_neg hs, if_neg (by omega), List.append_assoc]

/-- What the last place of a column shows: an ellipsis if the text is too long, and a blank if it is
too short. -/
def lastPlace (w : Nat) (s : List Char) : Char := if w + 1 < s.length then '…' else s[w]?.getD ' '

/-- The other places show the text, with blanks behind it. -/
theorem column_succ (w : Nat) (s : List Char) :
    column (w + 1) s = (s ++ List.replicate w ' ').take w ++ [lastPlace w s] := by
  unfold column lastPlace
  by_cases hlong : w + 1 < s.length
  · rw [if_pos hlong, if_pos hlong, List.take_append_of_le_length (by omega), Nat.add_sub_cancel]
  · rw [if_neg hlong, if_neg hlong, pad]
    by_cases hfull : w < s.length
    · have hlength : s.length = w + 1 := by omega
      rw [hlength, Nat.sub_self, List.replicate_zero, List.append_nil,
        List.take_append_of_le_length (by omega), List.getElem?_eq_getElem hfull, Option.getD_some,
        List.take_append_getElem hfull, List.take_of_length_le (by omega)]
    · rw [List.getElem?_eq_none (by omega), Option.getD_none, List.take_append,
        List.take_of_length_le (by omega), List.take_replicate, Nat.min_eq_left (by omega),
        List.append_assoc, ← List.replicate_succ', Nat.succ_sub (by omega)]

theorem column_succ_inj {w : Nat} {s t : List Char} :
    column (w + 1) s = column (w + 1) t ↔
      (s ++ List.replicate w ' ').take w = (t ++ List.replicate w ' ').take w ∧
        lastPlace w s = lastPlace w t := by
  rw [column_succ, column_succ]
  refine ⟨fun h => ?_, fun h => by rw [h.1, h.2]⟩
  obtain ⟨htake, hlast⟩ := List.append_inj' h rfl
  exact ⟨htake, List.singleton_inj.1 hlast⟩

theorem lastPlace_append (u s : List Char) : lastPlace u.length (u ++ s) = lastPlace 0 s := by
  unfold lastPlace
  rw [List.length_append, List.getElem?_append_right (Nat.le_refl _), Nat.sub_self]
  by_cases hs : 0 + 1 < s.length
  · rw [if_pos hs, if_pos (by omega)]
  · rw [if_neg hs, if_neg (by omega)]

theorem lastPlace_of_two_le {s : List Char} (h : 2 ≤ s.length) : lastPlace 0 s = '…' :=
  if_pos h

/-! ## What shows of a quoted component -/

/-- A column whose last place comes after `w` characters ends before it can show that a text is not
quoted: plain characters and then backslashes fill it, and it ends with an ellipsis. -/
def CutOff (w : Nat) (s : List Char) : Prop :=
  ∃ rest, StartsAlike w s rest ∧ (2 ≤ rest.length ∨ rest = ['…'])

theorem CutOff.column_bared {w : Nat} {s : List Char} (h : CutOff w s) :
    column (w + 1) s = column (w + 1) (bared s) := by
  obtain ⟨rest, halike, hrest⟩ := h
  obtain ⟨hs, hlength, j, hbared, -⟩ := halike.bared_eq
  generalize s.take w = u at hs hlength hbared
  subst hlength hs
  have hlast : lastPlace 0 rest = lastPlace 0 (List.replicate j '\\' ++ bared rest) := by
    rcases hrest with htwo | rfl
    · have hlong : 2 ≤ (List.replicate j '\\' ++ bared rest).length := by
        have hle := length_le_bared rest
        rw [List.length_append]
        omega
      rw [lastPlace_of_two_le htwo, lastPlace_of_two_le hlong]
    · have hellipsis : bared ['…'] = ['…'] := by decide +kernel
      rw [hellipsis]
      cases j with
      | zero => rfl
      | succ j => exact (lastPlace_of_two_le (by simp)).symm
  rw [column_succ_inj, hbared, lastPlace_append, lastPlace_append]
  refine ⟨?_, hlast⟩
  rw [List.append_assoc, List.append_assoc, List.take_left, List.take_left]

/-- A rest of which only one place is seen, so that it and its bared form behind backslashes look
alike, is plain and has no backslashes before it, unless the place shows an ellipsis. -/
theorem rest_of_lastPlace_eq {j : Nat} {rest : List Char}
    (h : lastPlace 0 rest = lastPlace 0 (List.replicate j '\\' ++ bared rest)) :
    j = 0 ∧ IsPlain rest ∨ 2 ≤ rest.length ∨ rest = ['…'] := by
  match rest with
  | [] =>
      match j with
      | 0 => exact .inl ⟨rfl, fun c hc => by cases hc⟩
      | 1 => exact absurd h (by decide)
      | j + 2 =>
          rw [lastPlace_of_two_le (s := _ ++ _) (by rw [List.length_append]; simp; omega)] at h
          exact absurd h (by decide)
  | [y] =>
      change y = _ at h
      by_cases hlong : 2 ≤ (List.replicate j '\\' ++ bared [y]).length
      · rw [lastPlace_of_two_le hlong] at h
        exact .inr (.inr (by rw [h]))
      · have hbared := length_le_bared [y]
        rw [List.length_append, List.length_replicate] at hlong
        rw [List.length_singleton] at hbared
        obtain rfl : j = 0 := by omega
        by_cases hy : y = '\x22'
        · subst hy
          exact absurd h (by decide)
        · rw [bared_cons (.inl hy), List.length_append] at hlong
          rcases escapeChar_cases y with ⟨hplain, -, -⟩ | ⟨d, hescaped, hd, -⟩
          · exact .inl ⟨rfl, List.forall_mem_singleton.2 hplain⟩
          · have hpos := List.length_pos_iff.2 hd
            rw [hescaped, List.length_cons] at hlong
            omega
  | x :: y :: rest => exact .inr (.inl (by simp))

/-- A column shows a quoted text without its quotes as the text itself only if that is so, or if it
ends too early. -/
theorem column_bared_iff (w : Nat) (s : List Char) :
    column (w + 1) s = column (w + 1) (bared s) ↔ IsPlain s ∨ CutOff w s := by
  refine ⟨fun h => ?_, fun h => ?_⟩
  · obtain ⟨htake, hlast⟩ := column_succ_inj.1 h
    rcases startsAlike_of_take (Nat.le_refl w) htake with hplain | ⟨rest, halike⟩
    · exact .inl hplain
    obtain ⟨hs, hlength, j, hbared, hplain⟩ := halike.bared_eq
    have hplaces : lastPlace 0 rest = lastPlace 0 (List.replicate j '\\' ++ bared rest) := by
      rw [hbared] at hlast
      have hw := lastPlace_append (s.take w)
      rw [hlength] at hw
      rw [← hw, ← hw, hs]
      exact hlast
    rcases rest_of_lastPlace_eq hplaces with ⟨hj, hrest⟩ | hrest
    · rw [← hs]
      exact .inl (List.forall_mem_append.2 ⟨hplain hj, hrest⟩)
    · exact .inr ⟨rest, halike, hrest⟩
  · rcases h with hplain | hcut
    · rw [bared_of_isPlain hplain]
    · exact hcut.column_bared

/-! ## Events that name who speaks -/

section

variable (level : Level) (before after : List (String × FieldValue)) (v : FieldValue)

/-- An event that names who speaks by some value, among its other fields. -/
def Record.speaking : Record := ⟨level, before ++ ("component", v) :: after⟩

theorem Record.last?_speaking {name : String} (h : name ≠ "component") :
    (speaking level before after v).last? name =
      (⟨level, before ++ after⟩ : Record).last? name := by
  have hname : ("component" == name) = false := by simpa using h.symm
  unfold speaking last?
  simp only [List.reverse_append, List.reverse_cons, List.append_assoc, List.find?_append,
    List.singleton_append, List.find?_cons, hname]

theorem Record.message_speaking :
    (speaking level before after v).message = (⟨level, before ++ after⟩ : Record).message := by
  rw [message, last?_speaking _ _ _ _ (by decide)]
  rfl

theorem Record.extra_speaking :
    (speaking level before after v).extra = (⟨level, before ++ after⟩ : Record).extra := by
  unfold speaking extra
  rw [List.filter_append, List.filter_append, List.filter_cons]
  rfl

/-- The last value that names who speaks counts. -/
theorem Record.component?_speaking : (speaking level before after v).component? =
    ((⟨level, after⟩ : Record).component?).or (some v.asComponent) := by
  unfold speaking component? last?
  simp only [List.reverse_append, List.reverse_cons, List.append_assoc, List.find?_append,
    List.singleton_append, List.find?_cons, beq_self_eq_true]
  cases List.find? (fun p => p.1 == "component") after.reverse <;> rfl

end

theorem Record.component?_eq_none_iff (r : Record) :
    r.component? = none ↔ ¬ ∃ p ∈ r.fields, p.1 = "component" := by
  rw [component?, last?, Option.map_eq_none_iff, Option.map_eq_none_iff, List.find?_eq_none,
    not_exists]
  simp only [List.mem_reverse, beq_iff_eq, not_and]

/-- Lines of events that differ at most in who speaks differ at most in that column. -/
theorem LineFormat.line_inj_of_eq (f : LineFormat) (time : String) {r q : Record}
    (hlevel : r.level = q.level) (hmessage : r.message = q.message) (hextra : r.extra = q.extra) :
    f.line time r = f.line time q ↔
      f.serviceColumn r.component? = f.serviceColumn q.component? := by
  have hback : back r = back q := by rw [back, back, fieldsText, fieldsText, hmessage, hextra]
  unfold line
  rw [String.ofList_inj, chars_eq, chars_eq, front_eq, front_eq, hback, hlevel]
  simp only [List.append_assoc, List.append_cancel_left_eq, List.append_cancel_right_eq]

theorem FieldValue.asComponent_quoted (c : String) :
    (quoted c).asComponent = String.ofList (bared c.toList) :=
  congrArg String.ofList (trimChar_quote c)

/-- The column for a part of the program begins with the name that all of them share. -/
theorem LineFormat.serviceColumn_some (f : LineFormat) (component : String) :
    f.serviceColumn (some component) = "comm-".toList ++ column 15 component.toList := by
  rw [serviceColumn, speaker, String.toList_append, column_append (by decide)]
  rfl

/-! ## The whole line -/

/-- A component that is recorded in quotes shows what trimming leaves of them.  That is the line of
the component recorded as a text if a later field names who speaks, or if quoting leaves the text
as it is, or if the fifteen places for it show a text whose first fourteen characters are plain
ones and backslashes behind them; otherwise the lines differ. -/
theorem quoted_component_shows_iff (f : LineFormat) (time : String) (level : Level)
    (before after : List (String × FieldValue)) (c : String) :
    let event := Record.speaking level before after
    f.line time (event (.quoted c)) = f.line time (event (.text (String.ofList (bared c.toList)))) ∧
      (f.line time (event (.quoted c)) = f.line time (event (.text c)) ↔
        (∃ p ∈ after, p.1 = "component") ∨ IsPlain c.toList ∨ CutOff 14 c.toList) := by
  intro event
  have hline (v w : FieldValue) : f.line time (event v) = f.line time (event w) ↔
      f.serviceColumn (event v).component? = f.serviceColumn (event w).component? :=
    f.line_inj_of_eq time rfl
      ((Record.message_speaking _ _ _ v).trans (Record.message_speaking _ _ _ w).symm)
      ((Record.extra_speaking _ _ _ v).trans (Record.extra_speaking _ _ _ w).symm)
  have hcomponent (v : FieldValue) : (event v).component? =
      ((⟨level, after⟩ : Record).component?).or (some v.asComponent) :=
    Record.component?_speaking level before after v
  refine ⟨?_, ?_⟩
  · rw [hline, hcomponent, hcomponent, FieldValue.asComponent_quoted]
    rfl
  · rw [hline, hcomponent, hcomponent, FieldValue.asComponent_quoted]
    by_cases hlater : ∃ p ∈ after, p.1 = "component"
    · obtain ⟨name, hname⟩ := Option.ne_none_iff_exists'.1
        fun h => (Record.component?_eq_none_iff ⟨level, after⟩).1 h hlater
      rw [hname]
      exact iff_of_true rfl (.inl hlater)
    · rw [(Record.component?_eq_none_iff ⟨level, after⟩).2 hlater, Option.none_or, Option.none_or,
        f.serviceColumn_some, f.serviceColumn_some, List.append_cancel_left_eq, String.toList_ofList,
        or_iff_right hlater, ← column_bared_iff]
      exact eq_comm

/-- A component that ends with a quote: recorded in quotes, it is shown with the backslashes that
quoting has put in, and its last quote is gone, though not the backslash before it. -/
theorem closing_quote_becomes_backslash :
    let f : LineFormat := ⟨"comm", false⟩
    let event := Record.speaking .info [("message", .shown "hello")] []
    let asText := f.line "12:00" (event (.text "say \"hi\""))
    let inQuotes := f.line "12:00" (event (.quoted "say \"hi\""))
    asText = "[12:00] [comm-say \"hi\"       ] [ℹ INFO   ] hello\n" ∧
      inQuotes = "[12:00] [comm-say \\\"hi\\      ] [ℹ INFO   ] hello\n" ∧
      inQuotes ≠ asText := by
  decide +kernel

end PeerLink.Log
