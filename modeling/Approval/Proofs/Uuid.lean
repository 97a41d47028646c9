import Approval.Proofs.Json.Token
import Approval.Uuid
import Mathlib.Data.Nat.Digits.Defs

/-!
# The text of identifiers

An identifier that is read has 128 bits, and one of 128 bits is read from the text that it is written as.
-/

namespace Approval.Uuid

/-! ### Hexadecimal digits -/

/-- The number that hexadecimal digits spell, after a number that others have spelled. -/
def spell? (n : Nat) (cs : List Char) : Option Nat :=
  cs.foldlM (fun n c => (JsonToken.hexValue? c).map (16 * n + ·)) n

lemma hexValue?_lt {c : Char} {n : Nat} (h : JsonToken.hexValue? c = some n) : n < 16 := by
  have upper (low high : Char) (within : low ≤ c ∧ c ≤ high) : low.toNat ≤ c.toNat ∧ c.toNat ≤ high.toNat := within
  unfold JsonToken.hexValue? at h
  split_ifs at h with digit lower capital
  · have := Char.isDigit_iff_toNat.mp digit
    obtain rfl := Option.some.inj h
    have zero : '0'.toNat = 48 := rfl
    have nine : '9'.toNat = 57 := rfl
    omega
  · have := upper 'a' 'f' lower
    obtain rfl := Option.some.inj h
    have zero : 'a'.toNat = 97 := rfl
    have nine : 'f'.toNat = 102 := rfl
    omega
  · have := upper 'A' 'F' capital
    obtain rfl := Option.some.inj h
    have zero : 'A'.toNat = 65 := rfl
    have nine : 'F'.toNat = 70 := rfl
    omega

@[simp] lemma spell?_cons {n : Nat} {c : Char} {cs : List Char} :
    spell? n (c :: cs) = (JsonToken.hexValue? c).bind fun d => spell? (16 * n + d) cs := by
  unfold spell?
  rw [List.foldlM_cons]
  cases JsonToken.hexValue? c <;> rfl

@[simp]
lemma spell?_append (n : Nat) (cs ds : List Char) : spell? n (cs ++ ds) = (spell? n cs).bind (spell? · ds) :=
  List.foldlM_append

/-- So many digits spell a number of so many digits. -/
lemma spell?_lt {n m : Nat} {cs : List Char} (h : spell? n cs = some m) : m < (n + 1) * 16 ^ cs.length := by
  induction cs generalizing n with
  | nil =>
    obtain rfl := Option.some.inj h
    simp
  | cons c cs ih =>
    rw [spell?_cons, Option.bind_eq_some_iff] at h
    obtain ⟨d, digit, h⟩ := h
    have less := hexValue?_lt digit
    calc m
      _ < (16 * n + d + 1) * 16 ^ cs.length := ih h
      _ ≤ (16 * (n + 1)) * 16 ^ cs.length := Nat.mul_le_mul_right _ (by omega)
      _ = (n + 1) * 16 ^ (cs.length + 1) := by rw [Nat.pow_succ', Nat.mul_comm 16 (n + 1), Nat.mul_assoc]

@[simp] lemma spell?_toDigits (n : Nat) : spell? 0 (Nat.toDigits 16 n) = some n := by
  rw [Nat.toDigits_eq_if (by decide)]
  split
  case isTrue small => rw [spell?_cons, JsonToken.hexValue?_digitChar small]; simp [spell?]
  case isFalse large =>
    rw [spell?_append, spell?_toDigits (n / 16), Option.bind_some, spell?_cons,
      JsonToken.hexValue?_digitChar (Nat.mod_lt _ (by decide))]
    simp only [Option.bind_some, Nat.div_add_mod]
    rfl

@[simp]
lemma spell?_zeros (count : Nat) (cs : List Char) : spell? 0 (List.replicate count '0' ++ cs) = spell? 0 cs := by
  induction count with
  | zero => rfl
  | succ count ih => rw [List.replicate_succ, List.cons_append, spell?_cons]; exact ih

/-! ### Identifiers -/

variable {u : Uuid}

lemma length_digits (h : u.value < 2 ^ 128) : u.digits.length = 32 := by
  have short := (Nat.length_toDigits_le_iff (b := 16) (n := u.value) (k := 32) (by decide) (by decide)).mpr h
  simp only [digits, List.length_append, List.length_replicate]
  omega

lemma ofDigits?_digits (h : u.value < 2 ^ 128) : ofDigits? u.digits = some u := by
  rw [ofDigits?, if_pos (length_digits h)]
  change (spell? 0 u.digits >>= fun n => some ⟨n⟩) = some u
  rw [digits, spell?_zeros, spell?_toDigits]
  rfl

lemma ne_hyphen_of_spell? {n m : Nat} {cs : List Char} (h : spell? n cs = some m) : ∀ c ∈ cs, c ≠ '-' := by
  induction cs generalizing n with
  | nil => simp
  | cons c cs ih =>
    rw [spell?_cons, Option.bind_eq_some_iff] at h
    obtain ⟨d, digit, h⟩ := h
    refine List.forall_mem_cons.mpr ⟨?_, ih h⟩
    rintro rfl
    cases digit

/-- Without its hyphens a text in groups is the text. -/
lemma filter_hyphenate {cs : List Char} (plain : ∀ c ∈ cs, c ≠ '-') : (hyphenate cs).filter (· ≠ '-') = cs := by
  have kept {part : List Char} (sub : part ⊆ cs) : part.filter (· ≠ '-') = part :=
    List.filter_eq_self.mpr fun c mem => decide_eq_true (plain c (sub mem))
  have taken (i j : Nat) : (cs.drop i).take j ⊆ cs := fun _ mem => List.mem_of_mem_drop (List.mem_of_mem_take mem)
  have dropped {part : List Char} (sub : part ⊆ cs) : ('-' :: part).filter (· ≠ '-') = part := by
    rw [List.filter_cons_of_neg (by simp), kept sub]
  have joined (i j : Nat) : (cs.drop i).take j ++ cs.drop (i + j) = cs.drop i := by
    rw [← List.drop_drop, List.take_append_drop]
  rw [hyphenate, List.filter_append, List.filter_append, List.filter_append, List.filter_append,
    kept (List.take_subset 8 cs), dropped (taken 8 4), dropped (taken 12 4), dropped (taken 16 4),
    dropped (List.drop_subset 20 cs), List.append_assoc, List.append_assoc, List.append_assoc,
    joined 16 4, joined 12 4, joined 8 4, List.take_append_drop]

/-- An identifier of 128 bits is read from its text. -/
theorem parse?_text (h : u.value < 2 ^ 128) : parse? u.text = some u := by
  have spelled : spell? 0 u.digits = some u.value := by rw [digits, spell?_zeros, spell?_toDigits]
  have len : (hyphenate u.digits).length = 36 := by
    have := length_digits h
    simp only [hyphenate, List.length_append, List.length_cons, List.length_take, List.length_drop]
    omega
  rw [parse?, text, String.toList_ofList]
  simp only [len]
  rw [ofHyphenated?, filter_hyphenate (ne_hyphen_of_spell? spelled), if_pos rfl, ofDigits?_digits h]

lemma value_lt_of_ofDigits? {cs : List Char} (h : ofDigits? cs = some u) : u.value < 2 ^ 128 := by
  rw [ofDigits?, Option.ite_none_right_eq_some, Option.bind_eq_bind, Option.bind_eq_some_iff] at h
  obtain ⟨len, n, spelled, h⟩ := h
  obtain rfl := Option.some.inj h
  have less := spell?_lt spelled
  rw [len] at less
  simpa using less

lemma value_lt_of_ofHyphenated? {cs : List Char} (h : ofHyphenated? cs = some u) : u.value < 2 ^ 128 :=
  value_lt_of_ofDigits? (Option.ite_none_right_eq_some.mp h).2

/-- An identifier that is read has 128 bits. -/
theorem value_lt_of_parse? {s : String} (h : parse? s = some u) : u.value < 2 ^ 128 := by
  unfold parse? at h
  dsimp only at h
  split at h
  · exact value_lt_of_ofDigits? h
  · exact value_lt_of_ofHyphenated? h
  · obtain ⟨inner, -, h⟩ := Option.bind_eq_some_iff.mp h
    exact value_lt_of_ofHyphenated? h
  · exact value_lt_of_ofHyphenated? (Option.ite_none_right_eq_some.mp h).2
  · cases h

end Approval.Uuid
