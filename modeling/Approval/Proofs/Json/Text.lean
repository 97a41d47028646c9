import Approval.Json.Writer
import Approval.Proofs.Json.Token
import Approval.Wire.Decoder

/-!
# The text of values

A JSON value is read from the text that it is written as, if it does not nest too deep and its numbers are read
from theirs.
-/

namespace Approval

/-- The token stands for something and is no number. -/
def JsonToken.IsMark : JsonToken → Prop
  | number _ | hugeNumber | brokenText | unreadable => False
  | _ => True

namespace Json

mutual

/-- The numbers in a value. -/
def numbers : Json → List JsonNumber
  | .number n => [n]
  | .array items => numbersOfItems items
  | .object members => numbersOfMembers members
  | _ => []

/-- The numbers in the items of an array. -/
def numbersOfItems : List Json → List JsonNumber
  | [] => []
  | v :: rest => v.numbers ++ numbersOfItems rest

/-- The numbers in the members of an object. -/
def numbersOfMembers : List (String × Json) → List JsonNumber
  | [] => []
  | (_, v) :: rest => v.numbers ++ numbersOfMembers rest

end

/-- The text of every number in the value is read as that number. -/
def ReadsBack (v : Json) : Prop := ∀ n ∈ v.numbers, n.ReadsBack

/-! ### Tokens -/

section Tokens

open JsonToken

lemma apart_cons {t : JsonToken} {ts : List JsonToken} (mark : t.IsMark) (apart : Apart ts) : Apart (t :: ts) := by
  cases t with
  | number | hugeNumber | brokenText | unreadable => exact mark.elim
  | _ => exact ⟨trivial, fun _ same => (nomatch same), apart⟩

lemma endsNumber_comma (ts : List JsonToken) : EndsNumber ((.comma :: ts).flatMap render) := by
  simp [EndsNumber, render]

lemma endsNumber_closeArray (ts : List JsonToken) : EndsNumber ((.closeArray :: ts).flatMap render) := by
  simp [EndsNumber, render]

lemma endsNumber_closeObject (ts : List JsonToken) : EndsNumber ((.closeObject :: ts).flatMap render) := by
  simp [EndsNumber, render]

mutual

/-- In the tokens of a value every number is followed by the end of its item or member. -/
lemma apart_tokens {ts : List JsonToken} (v : Json) (reads : ∀ n ∈ v.numbers, n.ReadsBack) (apart : Apart ts)
    (ends : EndsNumber (ts.flatMap render)) : Apart (v.tokens ++ ts) := by
  match v with
  | .null => exact apart_cons (by trivial) apart
  | .bool b => exact apart_cons (by trivial) apart
  | .number n => exact ⟨reads n (by simp [numbers]), fun _ _ => ends, apart⟩
  | .text s => exact apart_cons (by trivial) apart
  | .array items =>
    rw [tokens, List.append_assoc]
    exact apart_cons (by trivial) <|
      apart_itemTokens items reads (apart_cons (by trivial) apart) (endsNumber_closeArray ts)
  | .object members =>
    rw [tokens, List.append_assoc]
    exact apart_cons (by trivial) <|
      apart_memberTokens members reads (apart_cons (by trivial) apart) (endsNumber_closeObject ts)

lemma apart_itemTokens {ts : List JsonToken} (items : List Json)
    (reads : ∀ n ∈ numbersOfItems items, n.ReadsBack) (apart : Apart ts)
    (ends : EndsNumber (ts.flatMap render)) : Apart (itemTokens items ++ ts) := by
  match items with
  | [] => exact apart
  | [v] => exact apart_tokens v (fun n mem => reads n (by simp [numbersOfItems, mem])) apart ends
  | v :: w :: rest =>
    rw [itemTokens, List.append_assoc]
    · have others := apart_itemTokens (w :: rest)
        (fun n mem => reads n (List.mem_append_right _ mem)) apart ends
      exact apart_tokens v (fun n mem => reads n (List.mem_append_left _ mem)) (apart_cons (by trivial) others)
        (endsNumber_comma _)
    · exact List.cons_ne_nil _ _

lemma apart_memberTokens {ts : List JsonToken} (members : List (String × Json))
    (reads : ∀ n ∈ numbersOfMembers members, n.ReadsBack) (apart : Apart ts)
    (ends : EndsNumber (ts.flatMap render)) : Apart (memberTokens members ++ ts) := by
  match members with
  | [] => exact apart
  | [(name, v)] =>
    exact apart_cons (by trivial) <| apart_cons (by trivial) <|
      apart_tokens v (fun n mem => reads n (by simp [numbersOfMembers, mem])) apart ends
  | (name, v) :: m :: rest =>
    rw [memberTokens, List.append_assoc]
    · have others := apart_memberTokens (m :: rest)
        (fun n mem => reads n (List.mem_append_right _ mem)) apart ends
      exact apart_cons (by trivial) <| apart_cons (by trivial) <|
        apart_tokens v (fun n mem => reads n (List.mem_append_left _ mem)) (apart_cons (by trivial) others)
          (endsNumber_comma _)
    · exact List.cons_ne_nil _ _

end

/-- The text of a value is cut into the tokens of the value. -/
lemma scan_chars {v : Json} (reads : v.ReadsBack) : scan v.chars = v.tokens := by
  have apart : Apart (v.tokens ++ []) := apart_tokens v reads trivial (by simp [EndsNumber])
  rw [List.append_nil] at apart
  exact scan_render apart

end Tokens

/-! ### Documents -/

section Documents

open Doc

variable {room fuel : Nat} {rest : List JsonToken}

/-- The tokens of a value begin with one that closes nothing. -/
lemma exists_tokens_eq_cons (v : Json) : ∃ t ts, v.tokens = t :: ts ∧ t ≠ .closeArray := by
  cases v <;> exact ⟨_, _, rfl, by simp⟩

lemma itemTokens_ne_closeArray (v : Json) (items : List Json) (rest tail : List JsonToken) :
    itemTokens (v :: items) ++ rest ≠ .closeArray :: tail := by
  obtain ⟨t, ts, tokens, open_⟩ := exists_tokens_eq_cons v
  cases items with
  | nil =>
    rw [itemTokens, tokens]
    exact fun same => open_ (List.cons.inj same).1
  | cons w items =>
    rw [itemTokens, tokens]
    · exact fun same => open_ (List.cons.inj same).1
    · exact List.cons_ne_nil _ _

lemma readValue_openArray (h : ∀ tail, rest ≠ .closeArray :: tail) :
    readValue room (fuel + 1) (.openArray :: rest) =
      (enclose room (.list (readItems (room - 1) fuel rest).1), (readItems (room - 1) fuel rest).2) := by
  rcases rest with _ | ⟨t, rest⟩
  · rfl
  · cases t with
    | closeArray => exact absurd rfl (h rest)
    | _ => rfl

@[simp] lemma readValue_openObject {name : String} :
    readValue room (fuel + 1) (.openObject :: .text name :: rest) =
      (enclose room (.object (readMembers (room - 1) fuel (.text name :: rest)).1),
        (readMembers (room - 1) fuel (.text name :: rest)).2) := rfl

lemma enclose_of_pos {d : Doc} (h : 0 < room) : enclose room d = d := if_pos h.ne'

lemma exists_memberTokens_eq_cons (m : String × Json) (members : List (String × Json)) :
    ∃ ts, memberTokens (m :: members) = .text m.1 :: ts := by
  cases members with
  | nil => exact ⟨_, rfl⟩
  | cons => exact ⟨_, rfl⟩

lemma length_pos_tokens (v : Json) : 0 < v.tokens.length := by
  obtain ⟨t, ts, tokens, -⟩ := exists_tokens_eq_cons v
  simp [tokens]

mutual

/-- The tokens of a value are read as its document, if there is room for it. -/
lemma readValue_tokens {room fuel : Nat} {rest : List JsonToken} (v : Json) (fits : v.depth ≤ room)
    (enough : 2 * v.tokens.length ≤ fuel + 1) : readValue room fuel (v.tokens ++ rest) = (ofJson v, rest) := by
  obtain ⟨fuel, rfl⟩ : ∃ k, fuel = k + 1 := ⟨fuel - 1, by have := length_pos_tokens v; omega⟩
  match v with
  | .null | .bool _ | .number _ | .text _ => rfl
  | .array [] =>
    change (enclose room (.list []), rest) = _
    rw [enclose_of_pos fits]
    rfl
  | .array (w :: items) =>
    rw [depth] at fits
    simp only [tokens, List.cons_append, List.append_assoc, List.nil_append, List.length_cons, List.length_append,
      List.length_nil] at enough ⊢
    rw [readValue_openArray (itemTokens_ne_closeArray w items _), enclose_of_pos (by omega),
      readItems_tokens w items (by omega) (by omega)]
    rfl
  | .object [] =>
    change (enclose room (.object []), rest) = _
    rw [enclose_of_pos fits]
    rfl
  | .object (m :: members) =>
    rw [depth] at fits
    simp only [tokens, List.cons_append, List.append_assoc, List.nil_append, List.length_cons, List.length_append,
      List.length_nil] at enough ⊢
    have read := @readMembers_tokens (room - 1) fuel rest m members (by omega) (by omega)
    obtain ⟨ts, first⟩ := exists_memberTokens_eq_cons m members
    rw [first, List.cons_append] at read ⊢
    rw [readValue_openObject, read, enclose_of_pos (by omega)]
    rfl

lemma readItems_tokens {room fuel : Nat} {rest : List JsonToken} (v : Json) (items : List Json)
    (fits : depthOfItems (v :: items) ≤ room) (enough : 2 * (itemTokens (v :: items)).length ≤ fuel) :
    readItems room fuel (itemTokens (v :: items) ++ .closeArray :: rest) = (ofItems (v :: items), rest) := by
  rw [depthOfItems] at fits
  match items with
  | [] =>
    rw [itemTokens] at enough ⊢
    obtain ⟨fuel, rfl⟩ : ∃ k, fuel = k + 1 := ⟨fuel - 1, by have := length_pos_tokens v; omega⟩
    rw [readItems, readValue_tokens v (by omega) (by omega)]
    rfl
  | w :: items =>
    rw [itemTokens, List.append_assoc] at *
    · simp only [List.length_append, List.length_cons] at enough
      obtain ⟨fuel, rfl⟩ : ∃ k, fuel = k + 1 := ⟨fuel - 1, by omega⟩
      rw [readItems, readValue_tokens v (by omega) (by omega)]
      simp only [List.cons_append]
      rw [readItems_tokens w items (by omega) (by omega)]
      rfl
    · exact List.cons_ne_nil _ _
    · exact List.cons_ne_nil _ _

lemma readMembers_tokens {room fuel : Nat} {rest : List JsonToken} (m : String × Json)
    (members : List (String × Json)) (fits : depthOfMembers (m :: members) ≤ room) (enough : 2 * (memberTokens (m :: members)).length ≤ fuel) :
    readMembers room fuel (memberTokens (m :: members) ++ .closeObject :: rest) =
      (Doc.ofMembers (m :: members), rest) := by
  obtain ⟨name, v⟩ := m
  rw [depthOfMembers] at fits
  match members with
  | [] =>
    rw [memberTokens] at enough ⊢
    simp only [List.length_cons, List.cons_append] at enough ⊢
    obtain ⟨fuel, rfl⟩ : ∃ k, fuel = k + 1 := ⟨fuel - 1, by omega⟩
    simp only [readMembers]
    rw [readValue_tokens v (by omega) (by omega)]
    rfl
  | m :: members =>
    rw [memberTokens, List.append_assoc] at *
    · simp only [List.length_append, List.length_cons, List.cons_append] at enough ⊢
      obtain ⟨fuel, rfl⟩ : ∃ k, fuel = k + 1 := ⟨fuel - 1, by omega⟩
      simp only [readMembers]
      rw [readValue_tokens v (by omega) (by omega)]
      simp only
      rw [readMembers_tokens m members (by omega) (by omega)]
      rfl
    · exact List.cons_ne_nil _ _
    · exact List.cons_ne_nil _ _

end

lemma ofTokens_tokens {v : Json} (fits : v.depth ≤ depthLimit) : ofTokens v.tokens = (ofJson v, []) := by
  have read := @readValue_tokens depthLimit (2 * v.tokens.length + 1) [] v fits (by omega)
  rwa [List.append_nil] at read

end Documents

end Json

/-- To decode the text of a value is to decode the value. -/
theorem Decoder.decodeText_compact {α : Type} (decode : Decoder α) {v : Json} (reads : v.ReadsBack)
    (fits : v.depth ≤ Json.depthLimit) : decode.decodeText v.compact = decode (Doc.ofJson v) := by
  rw [decodeText, Json.compact, String.toList_ofList, Json.scan_chars reads, Json.ofTokens_tokens fits]
  cases h : decode (Doc.ofJson v) <;> simp [bind, Except.bind, h]

end Approval
