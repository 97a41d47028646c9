import Approval.Json.Token
import Approval.Proofs.Number.Digits

/-!
# The text of tokens

Tokens are cut out of a text as they were written into it, if no number is followed by more of a number. For
numbers with a point or an exponent that is as far as their own texts are read as them.
-/

namespace Approval

namespace JsonToken

/-! ### Strings -/

/-- The piece that stands for a character: its number, if it is a control character without a letter. -/
def pieceOf (c : Char) : Piece :=
  if c.toNat < 0x20 ∧ c ∉ ['\n', '\r', '\t', '\x08', '\x0c'] then .unit c.toNat else .char c

lemma hexValue?_digitChar {n : Nat} (h : n < 16) : hexValue? (Nat.digitChar n) = some n := by
  interval_cases n <;> decide

/-- A character is read off the way in which it is written. -/
@[simp] lemma scanPieces_escapeChar (c : Char) (cs : List Char) :
    scanPieces (escapeChar c ++ cs) = (scanPieces cs).map fun p => (pieceOf c :: p.1, p.2) := by
  have named {c : Char} (d : Char) (found : unescape? d = some c) (plain : d ≠ 'u') (piece : pieceOf c = .char c) :
      scanPieces ('\\' :: d :: cs) = (scanPieces cs).map fun p => (pieceOf c :: p.1, p.2) := by
    rw [piece, scanPieces, found]
    · cases scanPieces cs <;> rfl
    · exact fun _ _ _ _ _ u => absurd u plain
  unfold escapeChar
  split_ifs with quote slash line back tab bell feed control
  iterate 7
    · subst c
      exact named _ rfl (by decide) (if_neg (by decide))
  · have spelled :
        hexUnit? '0' '0' (Nat.digitChar (c.toNat / 16)) (Nat.digitChar (c.toNat % 16)) = some c.toNat := by
      have zero : hexValue? '0' = some 0 := by decide
      simp only [hexUnit?, zero, hexValue?_digitChar (show c.toNat / 16 < 16 by omega),
        hexValue?_digitChar (show c.toNat % 16 < 16 by omega), Option.bind_eq_bind, Option.bind_some,
        Option.pure_def]
      congr 1
      omega
    have piece : pieceOf c = .unit c.toNat := if_pos ⟨control, by simp [*]⟩
    simp only [List.cons_append, List.nil_append]
    rw [scanPieces, spelled, piece]
    cases scanPieces cs <;> rfl
  · rw [List.cons_append, List.nil_append, scanPieces, if_neg (by simp [*]),
      show pieceOf c = .char c from if_neg fun h => control h.1]
    · cases scanPieces cs <;> rfl
    · exact fun same => absurd same quote
    · exact fun _ _ _ _ _ same => absurd same slash
    · exact fun _ _ same => absurd same slash

lemma joinPieces?_unit {n : Nat} (small : n < 0x20) (pieces : List Piece) :
    joinPieces? (.unit n :: pieces) = (joinPieces? pieces).map (Char.ofNat n :: ·) := by
  have high : isHighUnit n = false := by simp [isHighUnit]; omega
  have low : isLowUnit n = false := by simp [isLowUnit]; omega
  rcases pieces with _ | ⟨_ | _, pieces⟩ <;> simp [joinPieces?, high, low]

@[simp] lemma joinPieces?_pieceOf (c : Char) (pieces : List Piece) :
    joinPieces? (pieceOf c :: pieces) = (joinPieces? pieces).map (c :: ·) := by
  unfold pieceOf
  split
  case isTrue small => rw [joinPieces?_unit small.1, Char.ofNat_toNat]
  case isFalse => rw [joinPieces?]

/-- A string is read up to its closing quotation mark. -/
@[simp] lemma scanPieces_flatMap (cs tail : List Char) :
    scanPieces (cs.flatMap escapeChar ++ '"' :: tail) = some (cs.map pieceOf, tail) := by
  induction cs with
  | nil => simp [scanPieces]
  | cons c cs ih => rw [List.flatMap_cons, List.append_assoc, scanPieces_escapeChar, ih]; rfl

@[simp] lemma joinPieces?_map (cs : List Char) : joinPieces? (cs.map pieceOf) = some cs := by
  induction cs with
  | nil => rfl
  | cons c cs ih => rw [List.map_cons, joinPieces?_pieceOf, ih]; rfl

@[simp]
lemma next?_text (s : String) (tail : List Char) : next? (renderText s ++ tail) = some (text s, tail) := by
  have read := scanPieces_flatMap s.toList tail
  simp only [renderText, List.cons_append, List.append_assoc, List.nil_append, next?, read, Option.bind_eq_bind,
    Option.bind_some, joinPieces?_map, String.ofList_toList]

/-! ### Numbers -/

/-- What may follow a number: the end of the text, or of the item or member that the number is. -/
def EndsNumber (cs : List Char) : Prop := ∀ c ∈ cs.head?, c = ',' ∨ c = ']' ∨ c = '\x7d'

lemma EndsNumber.endsDigits {cs : List Char} (h : EndsNumber cs) : Number.EndsDigits cs := by
  intro c mem
  rcases h c mem with rfl | rfl | rfl <;> rfl

lemma EndsNumber.scanPower {cs : List Char} (h : EndsNumber cs) : scanPower cs = some (none, cs) := by
  cases cs with
  | nil => rfl
  | cons c cs =>
    have other : ¬(c = 'e' ∨ c = 'E') := by rcases h c rfl with rfl | rfl | rfl <;> decide
    rw [JsonToken.scanPower, if_neg other]

lemma splitSign_append {cs : List Char} (h : cs ≠ []) (tail : List Char) :
    Number.Decimal.splitSign (cs ++ tail) =
      ((Number.Decimal.splitSign cs).1, (Number.Decimal.splitSign cs).2 ++ tail) := by
  obtain ⟨c, cs, rfl⟩ := List.exists_cons_of_ne_nil h
  unfold Number.Decimal.splitSign
  split <;> simp_all

/-- An exponent that ends a text is read where the number ends as well. -/
lemma scanPower_append {cs tail : List Char} {power : Option (Bool × List Char)} (ends : EndsNumber tail)
    (h : scanPower cs = some (power, [])) : scanPower (cs ++ tail) = some (power, tail) := by
  cases cs with
  | nil =>
    obtain ⟨rfl, -⟩ := Prod.mk.inj (Option.some.inj h)
    exact ends.scanPower
  | cons c cs =>
    by_cases exponent : c = 'e' ∨ c = 'E'
    · simp only [scanPower, List.cons_append, if_pos exponent] at h ⊢
      have some_digits : cs ≠ [] := by
        rintro rfl
        cases h
      simp only [splitSign_append some_digits, Number.takeWhile_append_of_endsDigits ends.endsDigits,
        Number.dropWhile_append_of_endsDigits ends.endsDigits, Option.ite_none_left_eq_some, Option.some.injEq,
        Prod.mk.injEq] at h ⊢
      exact ⟨h.1, h.2.1, by rw [h.2.2, List.nil_append]⟩
    · rw [scanPower, if_neg exponent] at h
      cases h

lemma scanNumber_append {negative : Bool} {cs tail : List Char} {t : JsonToken} (ends : EndsNumber tail)
    (h : scanNumber negative cs = some (t, [])) : scanNumber negative (cs ++ tail) = some (t, tail) := by
  have power_append {cs : List Char} (f : Option (Bool × List Char) → JsonToken)
      (h : (do let p ← scanPower cs; some (f p.1, p.2)) = some (t, [])) :
      (do let p ← scanPower (cs ++ tail); some (f p.1, p.2)) = some (t, tail) := by
    obtain ⟨⟨power, rest⟩, found, same⟩ := Option.bind_eq_some_iff.mp h
    obtain ⟨rfl, rfl⟩ := Prod.mk.inj (Option.some.inj same)
    rw [scanPower_append ends found]
    rfl
  unfold scanNumber at h ⊢
  simp only [Number.takeWhile_append_of_endsDigits ends.endsDigits, Option.ite_none_left_eq_some] at h ⊢
  refine ⟨h.1, ?_⟩
  have h := h.2
  rw [Number.dropWhile_append_of_endsDigits ends.endsDigits]
  split at h
  · rename_i rest point
    rw [point]
    simp only [List.cons_append, Number.takeWhile_append_of_endsDigits ends.endsDigits,
      Number.dropWhile_append_of_endsDigits ends.endsDigits, Option.ite_none_left_eq_some] at h ⊢
    exact ⟨h.1, power_append (fun power => NumberText.token
      { negative, whole := cs.takeWhile Char.isDigit, places := rest.takeWhile Char.isDigit, power }) h.2⟩
  · rename_i rest no_point
    have no_point' : ∀ rest, cs.dropWhile Char.isDigit ++ tail = '.' :: rest → False := by
      intro rest same
      rcases List.append_eq_cons_iff.mp same with ⟨-, tail_point⟩ | ⟨front, point, -⟩
      · rcases ends '.' (by rw [tail_point]; rfl) with dot | dot | dot <;> cases dot
      · exact no_point _ point
    split
    · rename_i same
      exact (no_point' _ same).elim
    · exact power_append (fun power => NumberText.token
        { negative, whole := cs.takeWhile Char.isDigit, power }) h

/-! ### Numbers in a text -/

lemma next?_of_digit {c : Char} (digit : c.isDigit = true) (cs : List Char) :
    next? (c :: cs) = scanNumber false (c :: cs) := by
  unfold next?
  split <;> simp_all

lemma digits_of_scanNumber {negative : Bool} {cs : List Char} {p : JsonToken × List Char}
    (h : scanNumber negative cs = some p) : cs.takeWhile Char.isDigit ≠ [] := by
  intro none
  simp [scanNumber, none] at h

lemma exists_digit_of_scanNumber {negative : Bool} {cs : List Char} {p : JsonToken × List Char}
    (h : scanNumber negative cs = some p) : ∃ c rest, cs = c :: rest ∧ c.isDigit = true := by
  cases cs with
  | nil => exact absurd rfl (digits_of_scanNumber h)
  | cons c rest =>
    refine ⟨c, rest, rfl, ?_⟩
    by_contra other
    exact digits_of_scanNumber h (by simp [other])

/-- A token starts with no blank. -/
lemma not_isSpace_of_next? {c : Char} {cs : List Char} {p : JsonToken × List Char}
    (h : next? (c :: cs) = some p) : isSpace c = false := by
  by_contra space
  simp only [isSpace, Bool.not_eq_false, Bool.or_eq_true, beq_iff_eq] at space
  have no_number : next? (c :: cs) = scanNumber false (c :: cs) := by
    rcases space with ((rfl | rfl) | rfl) | rfl <;> rfl
  rw [no_number] at h
  obtain ⟨d, rest, same, digit⟩ := exists_digit_of_scanNumber h
  obtain ⟨rfl, -⟩ := List.cons.inj same
  rcases space with ((rfl | rfl) | rfl) | rfl <;> cases digit

/-- A token that is a number starts with a sign or a digit. -/
lemma of_next?_number {n : JsonNumber} {cs rest : List Char} (h : next? cs = some (number n, rest)) :
    (∃ cs', cs = '-' :: cs' ∧ scanNumber true cs' = some (number n, rest)) ∨
      scanNumber false cs = some (number n, rest) := by
  unfold next? at h
  split at h
  case h_10 =>
    obtain ⟨⟨pieces, rest⟩, -, h⟩ := Option.bind_eq_some_iff.mp h
    dsimp only at h
    split at h <;> cases h
  case h_11 cs' => exact .inl ⟨cs', rfl, h⟩
  case h_12 => exact .inr h
  all_goals cases h

/-! ### Numbers as texts of their own -/

lemma isSpace_of_isDigit {c : Char} (digit : c.isDigit = true) : isSpace c = false := by
  by_contra space
  simp only [isSpace, Bool.not_eq_false, Bool.or_eq_true, beq_iff_eq] at space
  rcases space with ((rfl | rfl) | rfl) | rfl <;> cases digit

lemma isSpace_of_mem_render {layout : Number.DecimalLayout} {d : Number.Decimal} :
    ∀ c ∈ layout.render d, isSpace c = false := by
  have digits (n : Nat) : ∀ c ∈ Nat.toDigits 10 n, isSpace c = false := fun c mem =>
    isSpace_of_isDigit (Number.isDigit_of_mem_toDigits c mem)
  have zeros (count : Nat) : ∀ c ∈ List.replicate count '0', isSpace c = false := by
    intro c mem
    rw [List.eq_of_mem_replicate mem]
    rfl
  unfold Number.DecimalLayout.render
  have written := digits d.digits
  generalize Nat.toDigits 10 d.digits = cs at written
  dsimp only
  split_ifs
  · simp [isSpace]
  · exact List.forall_mem_append.mpr ⟨List.forall_mem_append.mpr ⟨written, zeros _⟩, by simp [isSpace]⟩
  · exact List.forall_mem_append.mpr ⟨fun c mem => written c (List.mem_of_mem_take mem),
      List.forall_mem_cons.mpr ⟨rfl, fun c mem => written c (List.mem_of_mem_drop mem)⟩⟩
  · exact List.forall_mem_append.mpr
      ⟨List.forall_mem_cons.mpr ⟨rfl, List.forall_mem_cons.mpr ⟨rfl, zeros _⟩⟩, written⟩
  all_goals
    refine List.forall_mem_append.mpr
      ⟨?_, List.forall_mem_cons.mpr ⟨rfl, List.forall_mem_cons.mpr ⟨rfl, digits _⟩⟩⟩
    split <;> simp_all [isSpace]

/-- There are no blanks in the text of a number. -/
lemma isSpace_of_mem_renderNumber {n : JsonNumber} : ∀ c ∈ renderNumber n, isSpace c = false := by
  have signed {cs : List Char} (h : ∀ c ∈ cs, isSpace c = false) : ∀ c ∈ '-' :: cs, isSpace c = false :=
    List.forall_mem_cons.mpr ⟨rfl, h⟩
  cases n with
  | whole n =>
    have digits : ∀ c ∈ Nat.toDigits 10 n.val.natAbs, isSpace c = false := fun c mem =>
      isSpace_of_isDigit (Number.isDigit_of_mem_toDigits c mem)
    rw [renderNumber, renderInt]
    split_ifs
    · exact signed digits
    · exact digits
  | real x =>
    rw [renderNumber, Number.Binary64.text]
    split_ifs
    · exact signed isSpace_of_mem_render
    · exact isSpace_of_mem_render

lemma suffix_of_scanPower {cs rest : List Char} {power : Option (Bool × List Char)}
    (h : scanPower cs = some (power, rest)) : rest <:+ cs := by
  cases cs with
  | nil =>
    obtain ⟨-, rfl⟩ := Prod.mk.inj (Option.some.inj h)
    exact List.suffix_refl _
  | cons c cs =>
    by_cases exponent : c = 'e' ∨ c = 'E'
    · simp only [scanPower, if_pos exponent, Option.ite_none_left_eq_some, Option.some.injEq, Prod.mk.injEq] at h
      have unsigned : (Number.Decimal.splitSign cs).2 <:+ cs := by
        unfold Number.Decimal.splitSign
        split
        · exact List.suffix_cons _ _
        · exact List.suffix_cons _ _
        · exact List.suffix_refl _
      rw [← h.2.2]
      exact ((List.dropWhile_suffix _).trans unsigned).trans (List.suffix_cons _ _)
    · rw [scanPower, if_neg exponent] at h
      obtain ⟨-, rfl⟩ := Prod.mk.inj (Option.some.inj h)
      exact List.suffix_refl _

/-- A number takes at least one digit off a text. -/
lemma suffix_of_scanNumber {negative : Bool} {cs rest : List Char} {t : JsonToken}
    (h : scanNumber negative cs = some (t, rest)) : rest <:+ cs ∧ rest.length < cs.length := by
  have some_digits := List.length_pos_iff.mpr (digits_of_scanNumber h)
  have parts := congrArg List.length (List.takeWhile_append_dropWhile (p := Char.isDigit) (l := cs))
  suffices within : rest <:+ cs.dropWhile Char.isDigit by
    have := within.length_le
    rw [List.length_append] at parts
    exact ⟨within.trans (List.dropWhile_suffix _), by omega⟩
  unfold scanNumber at h
  simp only [Option.ite_none_left_eq_some] at h
  have h := h.2
  split at h
  · rename_i after point
    simp only [Option.ite_none_left_eq_some, Option.bind_eq_bind, Option.bind_eq_some_iff, Option.some.injEq,
      Prod.mk.injEq, Prod.exists] at h
    obtain ⟨-, power, rest, found, -, rfl⟩ := h
    rw [point]
    exact ((suffix_of_scanPower found).trans (List.dropWhile_suffix _)).trans (List.suffix_cons _ _)
  · simp only [Option.bind_eq_bind, Option.bind_eq_some_iff, Option.some.injEq, Prod.mk.injEq, Prod.exists] at h
    obtain ⟨power, rest, found, -, rfl⟩ := h
    exact suffix_of_scanPower found

end JsonToken

/-- The text of a number is read as the number. -/
def JsonNumber.ReadsBack (n : JsonNumber) : Prop := JsonToken.scan (JsonToken.renderNumber n) = [.number n]

instance (n : JsonNumber) : Decidable n.ReadsBack := by unfold JsonNumber.ReadsBack; infer_instance

namespace JsonToken

lemma scanWith_of_next? {cs rest : List Char} {t : JsonToken} (h : next? cs = some (t, rest)) (fuel : Nat) :
    scanWith (fuel + 1) cs = t :: scanWith fuel rest := by
  cases cs with
  | nil => cases h
  | cons c cs =>
    rw [scanWith, List.dropWhile_cons, not_isSpace_of_next? h, if_neg (by decide)]
    simp only [h]

lemma scanWith_of_none {c : Char} {cs : List Char} (mark : isSpace c = false) (h : next? (c :: cs) = none)
    (fuel : Nat) : scanWith (fuel + 1) (c :: cs) = [unreadable] := by
  rw [scanWith, List.dropWhile_cons, mark, if_neg (by decide)]
  simp only [h]

end JsonToken

open JsonToken

/-- A number whose text is read as it takes all of that text. -/
lemma JsonNumber.ReadsBack.next? {n : JsonNumber} (reads : n.ReadsBack) :
    JsonToken.next? (renderNumber n) = some (.number n, []) := by
  have blanks := isSpace_of_mem_renderNumber (n := n)
  unfold ReadsBack at reads
  generalize renderNumber n = cs at blanks reads ⊢
  cases cs with
  | nil => cases reads
  | cons c cs =>
    cases found : JsonToken.next? (c :: cs) with
    | none =>
      rw [scan, List.length_cons, scanWith_of_none (blanks c List.mem_cons_self) found] at reads
      cases reads
    | some p =>
      obtain ⟨t, rest⟩ := p
      rw [scan, List.length_cons, scanWith_of_next? found] at reads
      obtain ⟨rfl, nothing⟩ := List.cons.inj reads
      have within : rest <:+ c :: cs ∧ rest.length < (c :: cs).length := by
        rcases of_next?_number found with ⟨_, text, found⟩ | found
        · obtain ⟨within, shorter⟩ := suffix_of_scanNumber found
          rw [text]
          exact ⟨within.trans (List.suffix_cons _ _), Nat.lt_succ_of_lt shorter⟩
        · exact suffix_of_scanNumber found
      cases rest with
      | nil => rfl
      | cons d rest =>
        obtain ⟨fuel, enough⟩ : ∃ k, cs.length = k + 1 := ⟨cs.length - 1, by
          have := within.2
          simp only [List.length_cons] at this
          omega⟩
        have mark := blanks d (within.1.subset List.mem_cons_self)
        rw [enough] at nothing
        cases next : JsonToken.next? (d :: rest) with
        | none => rw [scanWith_of_none mark next] at nothing; cases nothing
        | some p => rw [scanWith_of_next? next] at nothing; cases nothing

namespace JsonToken

lemma next?_number {n : JsonNumber} (reads : n.ReadsBack) {tail : List Char} (ends : EndsNumber tail) :
    next? (renderNumber n ++ tail) = some (number n, tail) := by
  rcases of_next?_number reads.next? with ⟨cs, text, found⟩ | found
  · rw [text]
    exact scanNumber_append ends found
  · have extended := scanNumber_append ends found
    obtain ⟨c, rest, text, digit⟩ := exists_digit_of_scanNumber found
    rw [text, List.cons_append] at extended ⊢
    rw [next?_of_digit digit, extended]

/-! ### Whole numbers -/

/-- Digits are taken while what they spell is a word. -/
lemma takeDigits_of_lt {n : Nat} {cs : List Char}
    (bound : cs.foldl (fun n c => 10 * n + Number.digitOf c) n < Nat.pow 2 64) :
    takeDigits n cs = (cs.foldl (fun n c => 10 * n + Number.digitOf c) n, []) := by
  have le (n : Nat) (cs : List Char) : n ≤ cs.foldl (fun n c => 10 * n + Number.digitOf c) n := by
    induction cs generalizing n with
    | nil => exact Nat.le_refl n
    | cons c cs ih =>
      have := ih (10 * n + Number.digitOf c)
      rw [List.foldl_cons]
      omega
  induction cs generalizing n with
  | nil => rfl
  | cons c cs ih =>
    rw [List.foldl_cons] at bound ⊢
    have next := Nat.lt_of_le_of_lt (le _ _) bound
    simp only [takeDigits, if_pos next, ih bound]

lemma takeDigits_toDigits {n : Nat} (h : n < Nat.pow 2 64) : takeDigits 0 (Nat.toDigits 10 n) = (n, []) := by
  have value := Number.ofDigits_toDigits n
  unfold Number.ofDigits at value
  rw [takeDigits_of_lt (by rwa [value]), value]

@[simp] lemma scanNumber_toDigits (negative : Bool) (n : Nat) :
    scanNumber negative (Nat.toDigits 10 n) = some (NumberText.wholeToken negative (Nat.toDigits 10 n), []) := by
  obtain ⟨whole, rest⟩ := Number.span_of_digits (Number.isDigit_of_mem_toDigits (n := n)) Number.endsDigits_nil
  rw [List.append_nil] at whole rest
  have proper : ¬((Nat.toDigits 10 n).isEmpty ∨
      (Nat.toDigits 10 n).head? = some '0' ∧ 1 < (Nat.toDigits 10 n).length) := by
    rintro (none | ⟨zero, longer⟩)
    · exact Nat.toDigits_ne_nil (List.isEmpty_iff.mp none)
    · rcases Nat.eq_zero_or_pos n with rfl | pos
      · exact absurd longer (by decide)
      · exact Number.head?_toDigits pos zero
  simp only [scanNumber, whole, rest, if_neg proper]
  rfl

end JsonToken

lemma Word.natAbs_lt (n : Word) : n.val.natAbs < Nat.pow 2 64 := by
  obtain ⟨low, high⟩ := n.isWord
  have negative : Int.pow 2 63 = 9223372036854775808 := by decide
  have positive : Int.pow 2 64 = 18446744073709551616 := by decide
  have bound : Nat.pow 2 64 = 18446744073709551616 := by decide
  omega

/-- Whole numbers read back. -/
lemma Word.readsBack (n : Word) : (JsonNumber.whole n).ReadsBack := by
  have taken := takeDigits_toDigits n.natAbs_lt
  have found : next? (renderInt n.val) = some (.number (.whole n), []) := by
    unfold renderInt
    split_ifs with negative
    · change scanNumber true _ = _
      have value : -(n.val.natAbs : Int) = n.val := by omega
      have nonzero : n.val.natAbs ≠ 0 := by omega
      simp only [scanNumber_toDigits, NumberText.wholeToken, taken, if_pos, nonzero, value, dif_pos n.isWord]
      simp
    · obtain ⟨c, cs, digits⟩ := List.exists_cons_of_ne_nil (Nat.toDigits_ne_nil (n := n.val.natAbs) (b := 10))
      have digit := Number.isDigit_of_mem_toDigits (n := n.val.natAbs) c (by simp [digits])
      have value : (n.val.natAbs : Int) = n.val := by omega
      rw [digits, next?_of_digit digit, ← digits, scanNumber_toDigits]
      simp [NumberText.wholeToken, taken, value, n.isWord]
  have some_text : renderInt n.val ≠ [] := by
    unfold renderInt
    split_ifs
    · exact List.cons_ne_nil _ _
    · exact Nat.toDigits_ne_nil
  obtain ⟨c, cs, text⟩ := List.exists_cons_of_ne_nil some_text
  rw [JsonNumber.ReadsBack, renderNumber, scan, text, List.length_cons, ← text, scanWith_of_next? found]
  cases cs <;> rfl

namespace JsonToken

/-! ### Tokens in a row -/

/-- The token stands for something. -/
def IsWritten : JsonToken → Prop
  | hugeNumber | brokenText | unreadable => False
  | number n => n.ReadsBack
  | _ => True

lemma next?_render {t : JsonToken} (written : t.IsWritten) {tail : List Char}
    (ends : ∀ n, t = number n → EndsNumber tail) : next? (render t ++ tail) = some (t, tail) := by
  cases t with
  | number n => exact next?_number written (ends n rfl)
  | text s => exact next?_text s tail
  | bool b => cases b <;> rfl
  | hugeNumber | brokenText | unreadable => exact written.elim
  | null | openArray | closeArray | openObject | closeObject | comma | colon => rfl

/-- All tokens stand for something, and each number ends where its text ends. -/
def Apart : List JsonToken → Prop
  | [] => True
  | t :: ts => t.IsWritten ∧ (∀ n, t = number n → EndsNumber (ts.flatMap render)) ∧ Apart ts

lemma scanWith_render {ts : List JsonToken} (apart : Apart ts) {fuel : Nat} (enough : ts.length ≤ fuel) :
    scanWith fuel (ts.flatMap render) = ts := by
  induction ts generalizing fuel with
  | nil => cases fuel <;> rfl
  | cons t ts ih =>
    obtain ⟨fuel, rfl⟩ : ∃ k, fuel = k + 1 := ⟨fuel - 1, by simp at enough; omega⟩
    obtain ⟨written, ends, rest⟩ := apart
    rw [List.flatMap_cons, scanWith_of_next? (next?_render written ends), ih rest (by simpa using enough)]

lemma render_ne_nil {t : JsonToken} (written : t.IsWritten) : render t ≠ [] := by
  cases t with
  | number n =>
    intro nothing
    have read := JsonNumber.ReadsBack.next? written
    rw [show renderNumber n = [] from nothing] at read
    cases read
  | bool b => cases b <;> simp [render]
  | hugeNumber | brokenText | unreadable => exact written.elim
  | text | null | openArray | closeArray | openObject | closeObject | comma | colon => simp [render, renderText]

lemma length_le_length_render {ts : List JsonToken} (apart : Apart ts) :
    ts.length ≤ (ts.flatMap render).length := by
  induction ts with
  | nil => exact Nat.le_refl _
  | cons t ts ih =>
    have first := List.length_pos_iff.mpr (render_ne_nil apart.1)
    have others := ih apart.2.2
    rw [List.flatMap_cons, List.length_append, List.length_cons]
    omega

/-- Tokens are cut out of the text that they are written into. -/
theorem scan_render {ts : List JsonToken} (apart : Apart ts) : scan (ts.flatMap render) = ts :=
  scanWith_render apart (length_le_length_render apart)

end JsonToken

end Approval
