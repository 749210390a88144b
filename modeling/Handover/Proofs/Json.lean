import Handover.Proofs.Json.Scalars
import Handover.Proofs.Table

/-!
# JSON text is read as it was written

From the text of a value the draft of that value is read, if its numbers are in range and read back as they are written:
`Draft.reads_legible`, `Decode.ofText_reads`.
-/

namespace Handover

namespace Json

/-- Its numbers are in range and read back as they are written, and members stand in the order of their names. -/
inductive Legible : Json → Prop where
  | null : Legible .null
  | bool (b : Bool) : Legible (.bool b)
  | int (low : -(Nat.pow 2 63 : Int) ≤ i) (high : i < (Nat.pow 2 64 : Int)) : Legible (.int i)
  | float (legible : d.Legible) : Legible (.float d)
  | str (s : String) : Legible (.str s)
  | arr (each : ∀ j ∈ items, Legible j) : Legible (.arr items)
  | obj (ordered : Table.Ordered members) (each : ∀ m ∈ members, Legible m.2) : Legible (.obj members)

/-- The items of an array behind the first one, each with its comma. -/
def furtherItems : List Json → List Char
  | [] => []
  | a :: rest => ',' :: a.chars ++ furtherItems rest

def furtherMembers : List (String × Json) → List Char
  | [] => []
  | (k, a) :: rest => ',' :: (quote k ++ ':' :: a.chars) ++ furtherMembers rest

theorem itemChars_cons (a : Json) (rest : List Json) : itemChars (a :: rest) = a.chars ++ furtherItems rest := by
  induction rest generalizing a with
  | nil => simp [itemChars, furtherItems]
  | cons b rest ih =>
    rw [itemChars.eq_3 _ _ (by simp), ih b, furtherItems, List.cons_append]

theorem memberChars_cons (k : String) (a : Json) (rest : List (String × Json)) :
    memberChars ((k, a) :: rest) = quote k ++ ':' :: a.chars ++ furtherMembers rest := by
  induction rest generalizing k a with
  | nil => simp [memberChars, furtherMembers]
  | cons m rest ih =>
    obtain ⟨l, b⟩ := m
    rw [memberChars.eq_3 _ _ _ (by simp), ih l b, furtherMembers, List.cons_append]

end Json

namespace Draft

variable {cs rest left whole : List Char} {d : Draft} {negative : Bool} {fuel : Nat} {c : Char} {j : Json}

/-- The value is read from the beginning of what follows, if there is fuel for it. -/
def Reads (j : Json) : Prop := ∀ fuel rest, 2 * j.chars.length ≤ fuel → EndsNumber rest →
  readValue fuel (j.chars ++ rest) = (j.draft, some rest)

theorem ends_cons (c : Char) (plain : c ≠ '.' ∧ c ≠ 'e' ∧ c ≠ 'E' ∧ c.isDigit = false) (rest : List Char) :
    EndsNumber (c :: rest) := by
  rintro _ ⟨⟩
  exact plain

/-- Where a value is, there is no bracket that ends the array. -/
theorem readItems_item {ds : List Draft} {tail : Tail} {after : Option (List Char)}
    (read : readValue fuel cs = (d, some rest)) (later : readItems fuel false rest = ((ds, tail), after)) :
    readItems (fuel + 1) true cs = ((d :: ds, tail), after) ∧
      readItems (fuel + 1) false (',' :: cs) = ((d :: ds, tail), after) := by
  rw [← readValue_skipSpace] at read
  have comma : skipSpace (',' :: cs) = ',' :: cs := rfl
  cases fuel with
  | zero => cases read
  | succ fuel =>
    cases start : skipSpace cs with
    | nil =>
      rw [start] at read
      cases read
    | cons c after =>
      rw [start] at read
      have value : c ≠ ']' := by
        rintro rfl
        cases read
      constructor
      · rw [readItems, start]
        simp [read, later]
      · rw [readItems, comma]
        simp [start, value, read, later]

theorem furtherItems_ends (items : List Json) (rest : List Char) :
    EndsNumber (Json.furtherItems items ++ ']' :: rest) := by
  cases items with
  | nil => exact ends_cons _ (by decide) _
  | cons => exact ends_cons _ (by decide) _

theorem furtherMembers_ends (members : List (String × Json)) (rest : List Char) :
    EndsNumber (Json.furtherMembers members ++ '\x7d' :: rest) := by
  cases members with
  | nil => exact ends_cons _ (by decide) _
  | cons => exact ends_cons _ (by decide) _

theorem readItems_further {items : List Json} (each : ∀ j ∈ items, Reads j) (fuel : Nat) (rest : List Char)
    (enough : 2 * (Json.furtherItems items).length < fuel) :
    readItems fuel false (Json.furtherItems items ++ ']' :: rest) = ((Json.itemDrafts items, .closed), some rest) := by
  induction items generalizing fuel with
  | nil =>
    obtain ⟨fuel, rfl⟩ := Nat.exists_eq_add_one_of_ne_zero (Nat.ne_of_gt enough)
    rfl
  | cons a items ih =>
    rw [Json.furtherItems, List.length_append, List.length_cons] at enough
    obtain ⟨fuel, rfl⟩ := Nat.exists_eq_add_one_of_ne_zero (Nat.ne_of_gt (Nat.lt_of_le_of_lt (Nat.zero_le _) enough))
    have read := each a (.head _) fuel (Json.furtherItems items ++ ']' :: rest) (by omega) (furtherItems_ends items rest)
    have later := ih (fun j there => each j (.tail _ there)) fuel (by omega)
    have both := (readItems_item read later).2
    rw [Json.furtherItems, List.cons_append, List.cons_append, List.append_assoc]
    exact both

theorem reads_arr {items : List Json} (each : ∀ j ∈ items, Reads j) : Reads (.arr items) := by
  intro fuel rest enough _
  rw [Json.chars, List.length_append, List.length_cons, List.length_singleton] at enough
  -- The brackets pay for the array itself and for its end.
  obtain ⟨fuel, rfl⟩ : ∃ n, fuel = n + 2 := ⟨fuel - 2, by omega⟩
  have items' : readItems (fuel + 1) true (Json.itemChars items ++ ']' :: rest) =
      ((Json.itemDrafts items, .closed), some rest) := by
    cases items with
    | nil => rfl
    | cons a items =>
      rw [Json.itemChars_cons, List.length_append] at enough
      have read := each a (.head _) fuel (Json.furtherItems items ++ ']' :: rest) (by omega) (furtherItems_ends items rest)
      have later := readItems_further (fun j there => each j (.tail _ there)) fuel rest (by omega)
      rw [Json.itemChars_cons, List.append_assoc]
      exact (readItems_item read later).1
  rw [Json.chars, List.append_assoc, List.cons_append, List.singleton_append, readValue]
  simp [skipSpace, isSpace, items', Json.draft]

/-- A member starts with its name. -/
theorem readMembers_member {ms : List (Option String × Draft)} {tail : Tail} {after : Option (List Char)} (name : String)
    (read : readValue fuel cs = (d, some rest)) (later : readMembers fuel false rest = ((ms, tail), after)) :
    readMembers (fuel + 1) true (Json.quote name ++ ':' :: cs) = (((some name, d) :: ms, tail), after) ∧
      readMembers (fuel + 1) false (',' :: (Json.quote name ++ ':' :: cs)) = (((some name, d) :: ms, tail), after) := by
  have named := readString_quoted name (':' :: cs)
  rw [quote_append]
  constructor
  · rw [readMembers]
    simp [skipSpace, isSpace, named, read, later]
  · rw [readMembers]
    simp [skipSpace, isSpace, named, read, later]

theorem readMembers_further {members : List (String × Json)} (each : ∀ m ∈ members, Reads m.2) (fuel : Nat)
    (rest : List Char) (enough : 2 * (Json.furtherMembers members).length < fuel) :
    readMembers fuel false (Json.furtherMembers members ++ '\x7d' :: rest) =
      ((Json.memberDrafts members, .closed), some rest) := by
  induction members generalizing fuel with
  | nil =>
    obtain ⟨fuel, rfl⟩ := Nat.exists_eq_add_one_of_ne_zero (Nat.ne_of_gt enough)
    rfl
  | cons m members ih =>
    obtain ⟨name, a⟩ := m
    simp only [Json.furtherMembers, List.length_append, List.length_cons] at enough
    obtain ⟨fuel, rfl⟩ := Nat.exists_eq_add_one_of_ne_zero (Nat.ne_of_gt (Nat.lt_of_le_of_lt (Nat.zero_le _) enough))
    have read := each (name, a) (.head _) fuel (Json.furtherMembers members ++ '\x7d' :: rest) (by dsimp only; omega)
      (furtherMembers_ends members rest)
    have later := ih (fun m there => each m (.tail _ there)) fuel (by omega)
    have both := (readMembers_member name read later).2
    simp only [Json.furtherMembers, List.cons_append, List.append_assoc]
    exact both

theorem reads_obj {members : List (String × Json)} (each : ∀ m ∈ members, Reads m.2) : Reads (.obj members) := by
  intro fuel rest enough _
  rw [Json.chars, List.length_append, List.length_cons, List.length_singleton] at enough
  obtain ⟨fuel, rfl⟩ : ∃ n, fuel = n + 2 := ⟨fuel - 2, by omega⟩
  have members' : readMembers (fuel + 1) true (Json.memberChars members ++ '\x7d' :: rest) =
      ((Json.memberDrafts members, .closed), some rest) := by
    cases members with
    | nil => rfl
    | cons m members =>
      obtain ⟨name, a⟩ := m
      simp only [Json.memberChars_cons, List.length_append, List.length_cons] at enough
      have read := each (name, a) (.head _) fuel (Json.furtherMembers members ++ '\x7d' :: rest) (by dsimp only; omega)
        (furtherMembers_ends members rest)
      have later := readMembers_further (fun m there => each m (.tail _ there)) fuel rest (by omega)
      have both := (readMembers_member name read later).1
      simp only [Json.memberChars_cons, List.cons_append, List.append_assoc]
      exact both
  rw [Json.chars, List.append_assoc, List.cons_append, List.singleton_append, readValue]
  simp [skipSpace, isSpace, members', Json.draft]

theorem float_chars {d : Double} (legible : d.Legible) : 0 < d.jsonText.toList.length := by
  cases text : d.jsonText.toList with
  | nil =>
    rw [Double.Legible, text] at legible
    cases legible
  | cons => exact Nat.succ_pos _

/-- What is no array or object takes one step to read. -/
theorem reads_scalar (written : 0 < j.chars.length) (read : ∀ fuel rest, EndsNumber rest →
    readValue (fuel + 1) (j.chars ++ rest) = (j.draft, some rest)) : Reads j := by
  intro fuel rest enough ends
  obtain ⟨fuel, rfl⟩ : ∃ n, fuel = n + 1 := ⟨fuel - 1, by omega⟩
  exact read fuel rest ends

theorem reads_legible (legible : j.Legible) : Reads j := by
  induction legible with
  | null => exact reads_scalar (by decide) fun _ _ _ => rfl
  | bool b => cases b <;> exact reads_scalar (by decide) fun _ _ _ => rfl
  | str s => exact reads_scalar (Nat.succ_pos _) fun fuel rest _ => readValue_quote s rest fuel
  | int low high =>
    refine reads_scalar ?_ fun fuel rest ends => readValue_intText low high ends fuel
    rw [Json.chars]
    unfold Json.intText
    split
    · exact Nat.succ_pos _
    · exact Nat.length_toDigits_pos
  | float legible => exact reads_scalar (float_chars legible) fun fuel rest ends => readValue_float legible ends fuel
  | arr _ ih => exact reads_arr ih
  | obj _ _ ih => exact reads_obj ih

theorem reads_str (s : String) : Reads (.str s) := reads_legible (.str s)

section
variable {α : Type} {encode : α → Json}

theorem reads_option {o : Option α} (each : ∀ a ∈ o, Reads (encode a)) : Reads (Json.ofOption encode o) := by
  cases o with
  | none => exact reads_legible .null
  | some a => exact each a rfl

theorem reads_list {l : List α} (each : ∀ a ∈ l, Reads (encode a)) : Reads (.arr (l.map encode)) := by
  refine reads_arr fun j there => ?_
  obtain ⟨a, inside, rfl⟩ := List.mem_map.mp there
  exact each a inside

end

end Draft

namespace Decode

/-- A text written for a value reads as the value does, if nothing of it is left over. -/
theorem ofText_render {α : Type} {decode : Decoder α} {j : Json} {d : Draft}
    (read : Draft.readValue (2 * j.chars.length + 2) j.chars = (d, some [])) :
    ofText decode j.render = decode 0 d := by
  have text : Draft.ofText j.render = (d, false) := by simp [Draft.ofText, Json.render, read, Draft.skipSpace]
  rw [ofText, text]
  cases decoded : decode 0 d <;> simp [bind, Except.bind, pure, Except.pure, decoded]

theorem ofText_reads {α : Type} {decode : Decoder α} {j : Json} (reads : Draft.Reads j) :
    ofText decode j.render = decode 0 j.draft := by
  have read := reads (2 * j.chars.length + 2) [] (by omega) nofun
  rw [List.append_nil] at read
  exact ofText_render read

theorem items_drafts {α : Type} {decode : Draft → Except Fault α} {encode : α → Json} {l : List α}
    (read : ∀ a ∈ l, decode (encode a).draft = .ok a) : items decode (Json.itemDrafts (l.map encode)) = .ok l := by
  induction l with
  | nil => rfl
  | cons a rest ih =>
    rw [List.map_cons, Json.itemDrafts, items, read a (.head _), ih fun a there => read a (.tail _ there)]
    rfl

theorem ofText_strings (names : List String) : ofText (list text) (Json.ofStrings names).render = .ok names := by
  have read : items (text 1) (Json.itemDrafts (names.map .str)) = .ok names := items_drafts fun _ _ => rfl
  have reads : Draft.Reads (Json.ofStrings names) := Draft.reads_list fun s _ => Draft.reads_str s
  rw [ofText_reads reads]
  simp [list, Json.ofStrings, Json.draft, enter, depthLimit, read, Draft.tailFault, bind, Except.bind, pure, Except.pure]

end Decode
end Handover
