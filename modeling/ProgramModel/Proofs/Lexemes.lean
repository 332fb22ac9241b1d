/-
# ProgramModel.Proofs.Lexemes -- a token is scanned from a lexeme of its own

A token that is whole is scanned from the glyphs of its own and from nothing behind them: the same
glyphs give the same token wherever they stand.  The one exception is a number, which goes on for
as long as it can; it ends where it ended before, and before a blank or a mark (`Stops`).

Scanners are put together from others, and what they take off the front is put together with them
(`Local.bind`).  Inside a text there is one look ahead, behind half of a surrogate pair.  It reaches
no further than the next unit of the text, so it stays inside as well (`scanUnit_exact`).

Hence the first token of a text stands in a `Lexeme` behind blanks (`Yields.exists_lexeme`), and a
lexeme put before anything that ends it is cut off as its token (`Cuts.lexeme`).
-/
import ProgramModel.Proofs.Spelling

namespace ProgramModel.Json

set_option autoImplicit false

open Text (Glyph)

/-! ## Where a scan stops -/

/-- Whether a token is scanned to its end. -/
def Token.IsWhole : Token → Prop
  | .broken .. => False
  | _ => True

/-- The blanks and marks.  No number goes on with one of them. -/
def delimiters : List Char := [' ', '\n', '\t', '\r', '\x7b', '\x7d', '[', ']', ',', ':']

/-- Nothing follows, or a delimiter. -/
def Ends (rest : List Glyph) : Prop := ∀ glyph ∈ rest.head?, ∃ c ∈ delimiters, glyph = .char c

/-- What stops before `after` stops before `rest` too: both begin alike, or `rest` ends it. -/
def Stops (after rest : List Glyph) : Prop := rest.head? = after.head? ∨ Ends rest

section Stops

variable {after rest : List Glyph}

theorem Stops.append (stops : Stops after rest) (used : List Glyph) :
    Stops (used ++ after) (used ++ rest) := by
  cases used with
  | nil => exact stops
  | cons glyph used => exact .inl rfl

/-- What does not go on with a character does not go on with it behind the cut. -/
theorem Stops.head?_ne (stops : Stops after rest) {c : Char} (plain : c ∉ delimiters)
    (apart : after.head? ≠ some (.char c)) : rest.head? ≠ some (.char c) := by
  intro front
  rcases stops with same | delimits
  · exact apart (same ▸ front)
  · obtain ⟨d, listed, same⟩ := delimits _ front
    cases same
    exact plain listed

theorem digit?_of_mem_delimiters {c : Char} (listed : c ∈ delimiters) :
    digit? (.char c) = none := by
  simp only [delimiters, List.mem_cons, List.not_mem_nil, or_false] at listed
  rcases listed with rfl | rfl | rfl | rfl | rfl | rfl | rfl | rfl | rfl | rfl <;> rfl

theorem Stops.digit?_eq_none (stops : Stops after rest)
    (ends : ∀ glyph ∈ after.head?, digit? glyph = none) :
    ∀ glyph ∈ rest.head?, digit? glyph = none := by
  intro glyph front
  rcases stops with same | delimits
  · exact ends glyph (same ▸ front)
  · obtain ⟨c, listed, rfl⟩ := delimits glyph front
    exact digit?_of_mem_delimiters listed

end Stops

/-! ## Numbers -/

/-- Whatever the scanner takes off the front it takes off wherever the scan stops as well. -/
def Local {ε α : Type} (scan : List Glyph → Except ε (α × List Glyph)) : Prop :=
  ∀ (text after : List Glyph) (value : α), scan text = .ok (value, after) →
    ∃ used, text = used ++ after ∧
      ∀ rest, Stops after rest → scan (used ++ rest) = .ok (value, rest)

section Numbers

variable {ε α β : Type} {text after : List Glyph}

theorem Local.map {scan : List Glyph → Except ε (α × List Glyph)} (front : Local scan) (f : α → β) :
    Local fun text => (scan text).map fun read => (f read.1, read.2) := by
  intro text after value scans
  cases read : scan text with
  | error fault => simp [read, Except.map] at scans
  | ok taken =>
      obtain ⟨first, behind⟩ := taken
      simp only [read, Except.map, Except.ok.injEq, Prod.mk.injEq] at scans
      obtain ⟨rfl, rfl⟩ := scans
      obtain ⟨used, rfl, again⟩ := front _ _ _ read
      refine ⟨used, rfl, fun rest stops => ?_⟩
      simp only [again rest stops, Except.map]

theorem Local.bind {first : List Glyph → Except ε (α × List Glyph)}
    {next : α → List Glyph → Except ε (β × List Glyph)} (front : Local first)
    (back : ∀ value, Local (next value)) :
    Local fun text => first text >>= fun read => next read.1 read.2 := by
  intro text after value scans
  cases read : first text with
  | error fault => simp [read, Bind.bind, Except.bind] at scans
  | ok taken =>
      obtain ⟨between, behind⟩ := taken
      simp only [read, Bind.bind, Except.bind] at scans
      obtain ⟨used, rfl, again⟩ := front _ _ _ read
      obtain ⟨more, rfl, further⟩ := back between _ _ _ scans
      refine ⟨used ++ more, (List.append_assoc ..).symm, fun rest stops => ?_⟩
      have one := again (more ++ rest) (stops.append more)
      simp only [List.append_assoc, one, Bind.bind, Except.bind]
      exact further rest stops

theorem takeDigits_eq {digits : List Nat} (taken : takeDigits text = (digits, after)) :
    (∀ glyph ∈ after.head?, digit? glyph = none) ∧ ∃ used, text = used ++ after ∧
      ∀ rest, Stops after rest → takeDigits (used ++ rest) = (digits, rest) := by
  have none_ {rest : List Glyph} (ends : ∀ glyph ∈ rest.head?, digit? glyph = none) :
      takeDigits rest = ([], rest) := by
    cases rest with
    | nil => rfl
    | cons glyph rest => rw [takeDigits, ends glyph rfl]
  induction text generalizing digits with
  | nil =>
      cases taken
      have ends : ∀ glyph ∈ ([] : List Glyph).head?, digit? glyph = none := by simp
      exact ⟨ends, [], rfl, fun rest stops => none_ (stops.digit?_eq_none ends)⟩
  | cons glyph text ih =>
      cases front : digit? glyph with
      | none =>
          have ends : ∀ other ∈ (glyph :: text).head?, digit? other = none := by
            rintro other there
            cases there
            exact front
          cases (none_ ends).symm.trans taken
          exact ⟨ends, [], rfl, fun rest stops => none_ (stops.digit?_eq_none ends)⟩
      | some digit =>
          rcases further : takeDigits text with ⟨others, behind⟩
          rw [takeDigits, front, further] at taken
          cases taken
          obtain ⟨ends, used, rfl, again⟩ := ih further
          refine ⟨ends, glyph :: used, rfl, fun rest stops => ?_⟩
          rw [List.cons_append, takeDigits, front, again rest stops]

theorem local_someDigits : Local someDigits := by
  intro text after digits scans
  rcases taken : takeDigits text with ⟨front, behind⟩
  obtain ⟨-, used, rfl, again⟩ := takeDigits_eq taken
  rw [someDigits, taken] at scans
  cases front with
  | nil => cases scans
  | cons digit front =>
      cases scans
      refine ⟨used, rfl, fun rest stops => ?_⟩
      rw [someDigits, again rest stops]

theorem local_scanWhole : Local scanWhole := by
  intro text after digits scans
  have some_ : someDigits text = .ok (digits, after) := by
    unfold scanWhole at scans
    split at scans
    · cases scans
    · exact scans
  obtain ⟨used, rfl, again⟩ := local_someDigits _ _ _ some_
  refine ⟨used, rfl, fun rest stops => ?_⟩
  rw [scanWhole, some_] at scans
  rw [scanWhole, again rest stops]
  split at scans
  · cases scans
  · rename_i lone
    split
    · rename_i digit others behind same
      cases same
      exact (lone digit others after rfl).elim
    · rfl

theorem scanFraction_of_head?_ne (apart : text.head? ≠ some (.char '.')) :
    scanFraction text = .ok (none, text) := by
  unfold scanFraction
  split
  · exact absurd rfl apart
  · rfl

theorem local_scanFraction : Local scanFraction := by
  intro text after fraction scans
  by_cases point : text.head? = some (.char '.')
  · obtain ⟨tail, rfl⟩ := List.head?_eq_some_iff.mp point
    obtain ⟨used, rfl, again⟩ := local_someDigits.map some _ _ _ scans
    exact ⟨.char '.' :: used, rfl, again⟩
  · rw [scanFraction_of_head?_ne point] at scans
    cases scans
    exact ⟨[], rfl, fun rest stops => scanFraction_of_head?_ne (stops.head?_ne (by decide) point)⟩

theorem local_scanExponentDigits (isNegative : Bool) : Local (scanExponentDigits isNegative) :=
  local_someDigits.map fun digits => some (Exponent.mk isNegative digits)

theorem scanSignedExponent_of_head?_ne (plus : text.head? ≠ some (.char '+'))
    (minus : text.head? ≠ some (.char '-')) :
    scanSignedExponent text = scanExponentDigits false text := by
  unfold scanSignedExponent
  split
  · exact absurd rfl plus
  · exact absurd rfl minus
  · rfl

theorem local_scanSignedExponent : Local scanSignedExponent := by
  intro text after exponent scans
  by_cases plus : text.head? = some (.char '+')
  · obtain ⟨tail, rfl⟩ := List.head?_eq_some_iff.mp plus
    obtain ⟨used, rfl, again⟩ := local_scanExponentDigits false _ _ _ scans
    exact ⟨.char '+' :: used, rfl, again⟩
  by_cases minus : text.head? = some (.char '-')
  · obtain ⟨tail, rfl⟩ := List.head?_eq_some_iff.mp minus
    obtain ⟨used, rfl, again⟩ := local_scanExponentDigits true _ _ _ scans
    exact ⟨.char '-' :: used, rfl, again⟩
  rw [scanSignedExponent_of_head?_ne plus minus] at scans
  obtain ⟨used, rfl, again⟩ := local_scanExponentDigits false _ _ _ scans
  refine ⟨used, rfl, fun rest stops => ?_⟩
  have same := stops.append used
  rw [scanSignedExponent_of_head?_ne (same.head?_ne (by decide) plus)
    (same.head?_ne (by decide) minus)]
  exact again rest stops

theorem scanExponent_of_head?_ne (lower : text.head? ≠ some (.char 'e'))
    (upper : text.head? ≠ some (.char 'E')) : scanExponent text = .ok (none, text) := by
  unfold scanExponent
  split
  · exact absurd rfl lower
  · exact absurd rfl upper
  · rfl

theorem local_scanExponent : Local scanExponent := by
  intro text after exponent scans
  by_cases lower : text.head? = some (.char 'e')
  · obtain ⟨tail, rfl⟩ := List.head?_eq_some_iff.mp lower
    obtain ⟨used, rfl, again⟩ := local_scanSignedExponent _ _ _ scans
    exact ⟨.char 'e' :: used, rfl, again⟩
  by_cases upper : text.head? = some (.char 'E')
  · obtain ⟨tail, rfl⟩ := List.head?_eq_some_iff.mp upper
    obtain ⟨used, rfl, again⟩ := local_scanSignedExponent _ _ _ scans
    exact ⟨.char 'E' :: used, rfl, again⟩
  rw [scanExponent_of_head?_ne lower upper] at scans
  cases scans
  exact ⟨[], rfl, fun rest stops => scanExponent_of_head?_ne (stops.head?_ne (by decide) lower)
    (stops.head?_ne (by decide) upper)⟩

theorem local_scanUnsigned (isNegative : Bool) : Local (Numeral.scanUnsigned isNegative) :=
  local_scanWhole.bind fun whole => local_scanFraction.bind fun fraction =>
    local_scanExponent.map fun exponent => Numeral.mk isNegative whole fraction exponent

theorem scan_of_head?_ne (minus : text.head? ≠ some (.char '-')) :
    Numeral.scan text = Numeral.scanUnsigned false text := by
  unfold Numeral.scan
  split
  · exact absurd rfl minus
  · rfl

/-- **A number is scanned again wherever it may stop.** -/
theorem local_scan : Local Numeral.scan := by
  intro text after numeral scans
  by_cases minus : text.head? = some (.char '-')
  · obtain ⟨tail, rfl⟩ := List.head?_eq_some_iff.mp minus
    obtain ⟨used, rfl, again⟩ := local_scanUnsigned true _ _ _ scans
    exact ⟨.char '-' :: used, rfl, again⟩
  rw [scan_of_head?_ne minus] at scans
  obtain ⟨used, rfl, again⟩ := local_scanUnsigned false _ _ _ scans
  refine ⟨used, rfl, fun rest stops => ?_⟩
  rw [scan_of_head?_ne ((stops.append used).head?_ne (by decide) minus)]
  exact again rest stops

end Numbers

/-! ## Texts -/

section Texts

variable {text after : List Glyph}

theorem hexEscape_eq_ok {value : Nat} (escapes : hexEscape text = .ok (value, after)) :
    ∃ a b c d, text = a :: b :: c :: d :: after ∧
      ∀ rest, hexEscape (a :: b :: c :: d :: rest) = .ok (value, rest) := by
  unfold hexEscape at escapes
  split at escapes
  · rename_i a b c d rest
    split at escapes
    · rename_i first second third fourth
      cases escapes
      refine ⟨a, b, c, d, rfl, fun rest => ?_⟩
      simp only [hexEscape, first, second, third, fourth]
    · cases escapes
  · cases escapes

/-- A pair that is complete is complete whatever follows it. -/
theorem completePair_eq_ok {leading : Nat} {c : Char}
    (completes : completePair leading text = .ok (c, after)) :
    ∃ used, text = used ++ after ∧ ∀ rest, completePair leading (used ++ rest) = .ok (c, rest) := by
  unfold completePair at completes
  split at completes
  · cases completes
  · cases completes
  · rename_i tail
    split at completes
    · cases completes
    · rename_i trailing behind escapes
      split at completes
      · rename_i trails
        simp only [Except.ok.injEq, Prod.mk.injEq] at completes
        obtain ⟨rfl, rfl⟩ := completes
        obtain ⟨a, b, c, d, rfl, again⟩ := hexEscape_eq_ok escapes
        refine ⟨[.char '\\', .char 'u', a, b, c, d], rfl, fun rest => ?_⟩
        simp only [List.cons_append, List.nil_append, completePair, again, trails, if_true]
      · cases completes
  · cases completes

theorem scanEscape_short {e meant : Char} (plain : e ≠ 'u') (short : shortEscape? e = some meant)
    (tail : List Glyph) : scanEscape (.char e :: tail) = (.char meant, tail) := by
  unfold scanEscape
  split <;> simp_all

theorem scanEscape_wrong {e : Char} (plain : e ≠ 'u') (short : shortEscape? e = none)
    (tail : List Glyph) : scanEscape (.char e :: tail) = (.wrong .invalidEscape, tail) := by
  unfold scanEscape
  split <;> simp_all

theorem completePair_of_ne {e : Char} (plain : e ≠ 'u') (leading : Nat) (tail : List Glyph) :
    completePair leading (.char '\\' :: .char e :: tail) = .error .unfinishedSurrogate := by
  unfold completePair
  split <;> simp_all

theorem scanUnit_of_ne {c : Char} (quote : c ≠ '"') (backslash : c ≠ '\\') (tail : List Glyph) :
    scanUnit (.char c :: tail) =
      if c.toNat < 0x20 then (.wrong .controlCharacter, tail) else (.char c, tail) := by
  rw [scanUnit]
  · exact quote
  · exact backslash

theorem completePair_of_front_ne {c : Char} (backslash : c ≠ '\\') (leading : Nat)
    (tail : List Glyph) : completePair leading (.char c :: tail) = .error .unfinishedSurrogate := by
  unfold completePair
  split <;> simp_all

/-- An escape is read again whatever follows it. -/
theorem scanEscape_exact {unit : TextUnit} (scans : scanEscape text = (unit, after))
    (right : ∀ fault, unit ≠ .wrong fault) :
    ∃ used, text = used ++ after ∧ ∀ rest,
      scanEscape (used ++ rest) = (unit, rest) ∧
      ∀ leading fault, completePair leading (.char '\\' :: text) = .error fault →
        completePair leading (.char '\\' :: (used ++ rest)) = .error fault := by
  match text with
  | [] =>
      cases scans
      exact absurd rfl (right _)
  | .malformed size :: tail =>
      cases scans
      exact absurd rfl (right _)
  | .char e :: tail =>
      by_cases coded : e = 'u'
      · subst coded
        rw [scanEscape] at scans
        cases escapes : hexEscape tail with
        | error fault =>
            rw [escapes] at scans
            cases scans
            exact absurd rfl (right _)
        | ok taken =>
            obtain ⟨value, behind⟩ := taken
            obtain ⟨a, b, c, d, rfl, again⟩ := hexEscape_eq_ok escapes
            simp only [escapes] at scans
            have stays : behind = after := by
              split at scans <;> exact (Prod.mk.inj scans).2
            subst stays
            refine ⟨[.char 'u', a, b, c, d], rfl, fun rest => ⟨?_, fun leading fault misses => ?_⟩⟩
            · simp only [List.cons_append, List.nil_append, scanEscape, again]
              split at scans
              · rename_i half
                rw [if_pos half, (Prod.mk.inj scans).1]
              · rename_i whole
                rw [if_neg whole, (Prod.mk.inj scans).1]
            · simp only [completePair, escapes] at misses
              simp only [List.cons_append, List.nil_append, completePair, again]
              split at misses
              · cases misses
              · rename_i other
                rw [if_neg other]
                exact misses
      · cases short : shortEscape? e with
        | none =>
            cases (scanEscape_wrong coded short tail).symm.trans scans
            exact absurd rfl (right _)
        | some meant =>
            cases (scanEscape_short coded short tail).symm.trans scans
            refine ⟨[.char e], rfl, fun rest => ⟨scanEscape_short coded short rest,
              fun leading fault misses => ?_⟩⟩
            rw [completePair_of_ne coded] at misses
            rw [List.singleton_append, completePair_of_ne coded]
            exact misses

/-- **A unit of a text is scanned again whatever follows it.**  What a strict reader misses behind
half of a pair it misses because of the unit alone. -/
theorem scanUnit_exact {unit : TextUnit} (scans : scanUnit text = (unit, after))
    (right : ∀ fault, unit ≠ .wrong fault) :
    ∃ glyph used, text = glyph :: (used ++ after) ∧ ∀ rest,
      scanUnit (glyph :: (used ++ rest)) = (unit, rest) ∧
      ∀ leading fault, completePair leading text = .error fault →
        completePair leading (glyph :: (used ++ rest)) = .error fault := by
  match text with
  | [] =>
      cases scans
      exact absurd rfl (right _)
  | .malformed size :: tail =>
      cases scans
      exact ⟨.malformed size, [], rfl, fun rest => ⟨rfl, fun _ _ misses => misses⟩⟩
  | .char c :: tail =>
      by_cases quote : c = '"'
      · subst quote
        cases scans
        exact ⟨.char '"', [], rfl, fun rest => ⟨rfl, fun _ _ misses => misses⟩⟩
      by_cases backslash : c = '\\'
      · subst backslash
        obtain ⟨used, rfl, again⟩ := scanEscape_exact scans right
        exact ⟨.char '\\', used, rfl, again⟩
      have goes := scanUnit_of_ne quote backslash
      rw [goes] at scans
      split at scans
      · cases scans
        exact absurd rfl (right _)
      · rename_i shown
        cases scans
        refine ⟨.char c, [], rfl, fun rest => ⟨?_, fun leading fault misses => ?_⟩⟩
        · rw [List.nil_append, goes, if_neg shown]
        · rw [completePair_of_front_ne backslash] at misses ⊢
          exact misses

theorem not_isWhole_unfinished (reading : Reading) (fault : Fault) :
    ¬ (unfinished reading fault).IsWhole := by
  cases reading <;> exact id

/-- The inside of a text is scanned from the glyphs `used`, whatever follows them.  What a strict
reader misses behind half of a pair is missing in `used` already. -/
structure Inside (reading : Reading) (isMalformed : Bool) (token : Token)
    (text after used : List Glyph) : Prop where
  shape : text = used ++ after
  scans : ∀ rest fuel, used.length ≤ fuel →
    scanText fuel reading isMalformed (used ++ rest) = (token, rest)
  misses : ∀ rest leading fault, completePair leading text = .error fault →
    completePair leading (used ++ rest) = .error fault

/-- What is taken behind a unit is taken together with it. -/
theorem exists_inside {reading : Reading} {isMalformed : Bool} {token : Token} {unit : TextUnit}
    {behind : List Glyph} (front : scanUnit text = (unit, behind))
    (right : ∀ fault, unit ≠ .wrong fault) {more : List Glyph} (shape : behind = more ++ after)
    (further : ∀ rest fuel, more.length ≤ fuel → ∀ glyphs,
      scanUnit glyphs = (unit, more ++ rest) →
      scanText (fuel + 1) reading isMalformed glyphs = (token, rest)) :
    ∃ used, Inside reading isMalformed token text after used := by
  obtain ⟨glyph, used, rfl, again⟩ := scanUnit_exact front right
  refine ⟨glyph :: (used ++ more), by simp [shape], fun rest fuel enough => ?_,
    fun rest leading fault misses => ?_⟩
  · rw [List.length_cons, List.length_append] at enough
    obtain ⟨fuel, rfl⟩ := Nat.exists_eq_add_one_of_ne_zero (Nat.ne_of_gt (by omega : 0 < fuel))
    rw [List.cons_append, List.append_assoc]
    exact further rest fuel (by omega) _ (again (more ++ rest)).1
  · rw [List.cons_append, List.append_assoc]
    exact (again (more ++ rest)).2 leading fault misses

/-- **The inside of a text is scanned again whatever follows it.** -/
theorem scanText_exact {fuel : Nat} {reading : Reading} {isMalformed : Bool} {token : Token}
    (scans : scanText fuel reading isMalformed text = (token, after)) (full : token.IsWhole) :
    ∃ used, Inside reading isMalformed token text after used := by
  induction fuel generalizing reading isMalformed text with
  | zero =>
      cases scans
      exact (not_isWhole_unfinished _ _ full).elim
  | succ fuel ih =>
      rcases front : scanUnit text with ⟨unit, behind⟩
      rw [scanText, front] at scans
      cases unit with
      | close =>
          cases scans
          have shape : after = [] ++ after := rfl
          refine exists_inside front (by simp) shape fun rest fuel _ glyphs unit => ?_
          rw [scanText, unit]
          rfl
      | char c =>
          obtain ⟨more, inside⟩ := ih scans
          refine exists_inside front (by simp) inside.shape fun rest fuel enough glyphs unit => ?_
          rw [scanText, unit]
          exact inside.scans rest fuel enough
      | malformed =>
          obtain ⟨more, inside⟩ := ih scans
          refine exists_inside front (by simp) inside.shape fun rest fuel enough glyphs unit => ?_
          rw [scanText, unit]
          exact inside.scans rest fuel enough
      | surrogate value =>
          by_cases trails : isTrailing value = true
          · simp only [if_pos trails] at scans
            obtain ⟨more, inside⟩ := ih scans
            refine exists_inside front (by simp) inside.shape fun rest fuel enough glyphs unit => ?_
            rw [scanText, unit]
            simp only [if_pos trails]
            exact inside.scans rest fuel enough
          simp only [if_neg trails] at scans
          cases pair : completePair value behind with
          | ok taken =>
              obtain ⟨c, last⟩ := taken
              simp only [pair] at scans
              obtain ⟨second, rfl, complete⟩ := completePair_eq_ok pair
              obtain ⟨more, inside⟩ := ih scans
              have shape : second ++ last = (second ++ more) ++ after := by
                rw [inside.shape, List.append_assoc]
              refine exists_inside front (by simp) shape fun rest fuel enough glyphs unit => ?_
              rw [List.length_append] at enough
              rw [scanText, unit]
              simp only [if_neg trails, List.append_assoc, complete]
              exact inside.scans rest fuel (by omega)
          | error fault =>
              simp only [pair] at scans
              obtain ⟨more, inside⟩ := ih scans
              refine exists_inside front (by simp) inside.shape
                fun rest fuel enough glyphs unit => ?_
              rw [scanText, unit]
              simp only [if_neg trails, inside.misses rest value fault pair]
              exact inside.scans rest fuel enough
      | wrong fault =>
          cases scans
          exact (not_isWhole_unfinished _ _ full).elim

end Texts

/-! ## Tokens -/

section Tokens

variable {text after : List Glyph} {token : Token}

theorem scanWord_eq {whole : Token} {word : List Char}
    (scans : scanWord whole word text = (token, after)) (full : token.IsWhole) :
    token = whole ∧ text = word.map .char ++ after := by
  induction word generalizing text with
  | nil =>
      cases scans
      exact ⟨rfl, rfl⟩
  | cons c word ih =>
      cases text with
      | nil =>
          cases scans
          exact full.elim
      | cons glyph text =>
          by_cases same : glyph = .char c
          · rw [scanWord, if_pos same] at scans
            obtain ⟨rfl, rfl⟩ := ih scans
            exact ⟨rfl, by rw [same]; rfl⟩
          · rw [scanWord, if_neg same] at scans
            cases scans
            exact full.elim

/-- A number begins with the first glyph of it. -/
theorem scanNumber_local {glyph : Glyph} (scans : scanNumber (glyph :: text) = (token, after))
    (full : token.IsWhole) :
    ∃ used, text = used ++ after ∧
      ∀ rest, Stops after rest → scanNumber (glyph :: (used ++ rest)) = (token, rest) := by
  unfold scanNumber at scans
  split at scans
  · rename_i numeral behind read
    cases scans
    obtain ⟨used, shape, again⟩ := local_scan _ _ _ read
    cases used with
    | nil =>
        -- Otherwise there would be a number at the end of the text.
        have ended : Stops after ([] : List Glyph) := .inr (by simp [Ends])
        cases again [] ended
    | cons first used =>
        rw [List.cons_append, List.cons.injEq] at shape
        obtain ⟨rfl, rfl⟩ := shape
        refine ⟨used, rfl, fun rest stops => ?_⟩
        have read := again rest stops
        rw [List.cons_append] at read
        rw [scanNumber, read]
  · cases scans
    exact full.elim
  · cases scans
    exact full.elim

/-- **A whole token is scanned again from the same glyphs**, wherever it may stop. -/
theorem scanToken_local {glyph : Glyph} (scans : scanToken glyph text = (token, after))
    (full : token.IsWhole) :
    ∃ used, text = used ++ after ∧
      ∀ rest, Stops after rest → scanToken glyph (used ++ rest) = (token, rest) := by
  have word (whole : Token) (letters : List Char)
      (stands : ∀ text, scanToken glyph text = scanWord whole letters text) :
      ∃ used, text = used ++ after ∧
        ∀ rest, Stops after rest → scanToken glyph (used ++ rest) = (token, rest) := by
    rw [stands] at scans
    obtain ⟨rfl, rfl⟩ := scanWord_eq scans full
    exact ⟨_, rfl, fun rest _ => (stands _).trans (scanWord_append token letters rest)⟩
  cases glyph with
  | malformed size =>
      cases scans
      exact full.elim
  | char c =>
      cases means : mark? c with
      | some mark =>
          simp only [scanToken, means] at scans
          cases scans
          refine ⟨[], rfl, fun rest _ => ?_⟩
          simp only [scanToken, means, List.nil_append]
      | none =>
          by_cases quote : c = '"'
          · subst quote
            have scansOn : scanText (text.length + 1) (.ok []) false text = (token, after) := scans
            obtain ⟨used, inside⟩ := scanText_exact scansOn full
            refine ⟨used, inside.shape, fun rest _ => inside.scans rest _ ?_⟩
            rw [List.length_append]
            omega
          by_cases null : c = 'n'
          · subst null
            exact word .null "ull".toList fun _ => rfl
          by_cases yes : c = 't'
          · subst yes
            exact word (.bool true) "rue".toList fun _ => rfl
          by_cases no : c = 'f'
          · subst no
            exact word (.bool false) "alse".toList fun _ => rfl
          have other (tail : List Glyph) : scanToken (.char c) tail =
              if c = '-' ∨ ('0' ≤ c ∧ c ≤ '9') then scanNumber (.char c :: tail)
              else (.broken false .valueExpected .valueExpected, []) := by
            simp only [scanToken, means]
          rw [other] at scans
          split at scans
          · rename_i numeric
            obtain ⟨used, rfl, again⟩ := scanNumber_local scans full
            refine ⟨used, rfl, fun rest stops => ?_⟩
            rw [other, if_pos numeric]
            exact again rest stops
          · cases scans
            exact full.elim

end Tokens

/-! ## Lexemes -/

/-- Only blanks. -/
def Blank (text : List Glyph) : Prop := ∀ glyph ∈ text, isSpace glyph = true

/-- The token is scanned from all of the glyphs, whatever ends it. -/
def Lexeme (token : Token) (text : List Glyph) : Prop :=
  ∃ glyph used, text = glyph :: used ∧ isSpace glyph = false ∧
    ∀ rest, Ends rest → scanToken glyph (used ++ rest) = (token, rest)

section Lexemes

variable {text rest : List Glyph} {token : Token} {list : List Token}

theorem Ends.nil : Ends [] := by simp [Ends]

theorem Ends.cons {c : Char} (listed : c ∈ delimiters) (rest : List Glyph) :
    Ends (.char c :: rest) := by
  rintro glyph there
  cases there
  exact ⟨c, listed, rfl⟩

theorem Blank.append {before after : List Glyph} (front : Blank before) (back : Blank after) :
    Blank (before ++ after) := by
  intro glyph there
  rcases List.mem_append.mp there with there | there
  · exact front glyph there
  · exact back glyph there

theorem mem_delimiters_of_isSpace {glyph : Glyph} (blank : isSpace glyph = true) :
    ∃ c ∈ delimiters, glyph = .char c := by
  cases glyph with
  | malformed size => cases blank
  | char c =>
      simp only [isSpace, Bool.or_eq_true, beq_iff_eq] at blank
      refine ⟨c, ?_, rfl⟩
      rcases blank with ((rfl | rfl) | rfl) | rfl <;> decide

theorem Ends.blanks (ends : Ends rest) (blank : Blank text) : Ends (text ++ rest) := by
  cases text with
  | nil => exact ends
  | cons glyph text =>
      rintro other there
      cases there
      exact mem_delimiters_of_isSpace (blank glyph List.mem_cons_self)

theorem Cuts.blanks (cuts : Cuts rest list) (blank : Blank text) : Cuts (text ++ rest) list := by
  induction text with
  | nil => exact cuts
  | cons glyph text ih =>
      have others := ih fun other there => blank other (List.mem_cons_of_mem _ there)
      exact others.space (blank glyph List.mem_cons_self)

theorem Cuts.lexeme (cuts : Cuts rest list) (lexeme : Lexeme token text) (ends : Ends rest) :
    Cuts (text ++ rest) (token :: list) := by
  obtain ⟨glyph, used, rfl, solid, again⟩ := lexeme
  refine cuts.token solid (again rest ends) ?_
  show rest.length ≤ (used ++ rest).length
  rw [List.length_append]
  omega

/-- The text is cut into the tokens, with some fuel that is enough. -/
def Yields (text : List Glyph) (list : List Token) : Prop :=
  ∃ fuel, text.length ≤ fuel ∧ tokensWithin fuel text = list

theorem yields_tokens (text : List Glyph) : Yields text (tokens text) :=
  ⟨text.length, Nat.le_refl _, rfl⟩

/-- A text without tokens is blank. -/
theorem Yields.blank (yields : Yields text []) : Blank text := by
  obtain ⟨fuel, enough, cut⟩ := yields
  induction fuel generalizing text with
  | zero =>
      rw [List.length_eq_zero_iff.mp (Nat.le_zero.mp enough)]
      simp [Blank]
  | succ fuel ih =>
      cases text with
      | nil => simp [Blank]
      | cons glyph text =>
          rw [tokensWithin] at cut
          split at cut
          · rename_i space
            have others := ih (by simpa using enough) cut
            exact List.forall_mem_cons.mpr ⟨space, others⟩
          · cases cut

/-- **The first token of a text stands in a lexeme**, behind blanks and before what yields the
others. -/
theorem Yields.exists_lexeme (yields : Yields text (token :: list)) (full : token.IsWhole) :
    ∃ blanks lexeme after, text = blanks ++ (lexeme ++ after) ∧ Blank blanks ∧
      Lexeme token lexeme ∧ Yields after list := by
  obtain ⟨fuel, enough, cut⟩ := yields
  induction fuel generalizing text with
  | zero => cases cut
  | succ fuel ih =>
      cases text with
      | nil => cases cut
      | cons glyph text =>
          rw [tokensWithin] at cut
          split at cut
          · rename_i space
            obtain ⟨blanks, lexeme, after, rfl, blank, found, others⟩ :=
              ih (by simpa using enough) cut
            exact ⟨glyph :: blanks, lexeme, after, rfl, List.forall_mem_cons.mpr ⟨space, blank⟩,
              found, others⟩
          · rename_i solid
            rcases scans : scanToken glyph text with ⟨front, after⟩
            simp only [scans, List.cons.injEq] at cut
            obtain ⟨rfl, cut⟩ := cut
            obtain ⟨used, rfl, again⟩ := scanToken_local scans full
            refine ⟨[], glyph :: used, after, rfl, by simp [Blank], ⟨glyph, used, rfl,
              by simpa using solid, fun rest ends => again rest (.inr ends)⟩, fuel, ?_, cut⟩
            rw [List.length_cons, List.length_append] at enough
            omega

/-! ### Marks -/

/-- The character of a mark. -/
def Mark.char : Mark → Char
  | .openBrace => '\x7b'
  | .closeBrace => '\x7d'
  | .openBracket => '['
  | .closeBracket => ']'
  | .comma => ','
  | .colon => ':'

theorem eq_char_of_mark? {c : Char} {mark : Mark} (means : mark? c = some mark) :
    c = mark.char := by
  unfold mark? at means
  split at means <;> cases means <;> rfl

theorem scanText_ne_mark (mark : Mark) (fuel : Nat) (reading : Reading) (isMalformed : Bool)
    (text : List Glyph) : (scanText fuel reading isMalformed text).1 ≠ .mark mark := by
  have unfinished_ (reading : Reading) (fault : Fault) : unfinished reading fault ≠ .mark mark := by
    cases reading <;> simp [unfinished]
  induction fuel generalizing reading isMalformed text with
  | zero => exact unfinished_ reading _
  | succ fuel ih =>
      rw [scanText]
      split
      · simp
      · exact ih _ _ _
      · exact ih _ _ _
      · split
        · exact ih _ _ _
        · split
          · exact ih _ _ _
          · exact ih _ _ _
      · exact unfinished_ reading _

/-- Only the character of a mark is scanned as the mark. -/
theorem scanToken_mark {glyph : Glyph} {mark : Mark} {after : List Glyph}
    (scans : scanToken glyph text = (.mark mark, after)) :
    glyph = .char mark.char ∧ after = text := by
  cases glyph with
  | malformed size => cases scans
  | char c =>
      cases means : mark? c with
      | some other =>
          simp only [scanToken, means] at scans
          cases scans
          exact ⟨by rw [← eq_char_of_mark? means], rfl⟩
      | none =>
          simp only [scanToken, means] at scans
          split at scans
          · exact absurd (congrArg Prod.fst scans) (scanText_ne_mark _ _ _ _ _)
          · cases (scanWord_eq scans trivial).1
          · cases (scanWord_eq scans trivial).1
          · cases (scanWord_eq scans trivial).1
          · split at scans
            · unfold scanNumber at scans
              split at scans <;> cases scans
            · cases scans

/-- **A mark that is scanned next stands behind blanks.** -/
theorem Yields.exists_mark {mark : Mark} (yields : Yields text (.mark mark :: list)) :
    ∃ blanks after, text = blanks ++ .char mark.char :: after ∧ Blank blanks ∧
      Yields after list := by
  obtain ⟨blanks, lexeme, after, rfl, blank, ⟨glyph, used, rfl, -, again⟩, others⟩ :=
    yields.exists_lexeme trivial
  obtain ⟨rfl, same⟩ := scanToken_mark (again [] .nil)
  obtain rfl : used = [] := by simpa using same.symm
  exact ⟨blanks, after, rfl, blank, others⟩

end Lexemes

end ProgramModel.Json
