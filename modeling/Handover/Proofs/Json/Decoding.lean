import Handover.Proofs.Json

/-!
# Decoding what was encoded

Each decoder takes from the draft of an encoded value that value, if the draft is not nested too deep. A record may have
its members in any order, and others between them: `Shape.decode_takes`.
-/

namespace Handover

namespace Double
variable {d : Double}

theorem Legible.isFinite (legible : d.Legible) : d.isFinite = true := by
  have null : Draft.readValue 1 "null".toList = (.null, some []) := rfl
  cases d with
  | finite => rfl
  | infinite => exact nomatch null.symm.trans legible
  | nan => exact nomatch null.symm.trans legible

theorem same_self (finite : d.isFinite = true) : (d == d) = true := by
  cases d with
  | finite n m e =>
    change ((m == 0 && m == 0) || (n == n && m == m && e == e)) = true
    simp
  | infinite => cases finite
  | nan => cases finite

end Double

/-- The text of the time is read as the time. -/
def Instant.Legible (t : Instant) : Prop := Timestamp.read? (Timestamp.write t) = some t

/-- The text of the amount is read as an amount of that size. -/
def Decimal.Legible (d : Decimal) : Prop := ∃ e, Decimal.ofText? d.text = some e ∧ (e == d) = true

/-- The nanoseconds are those of a second that is not full. -/
structure Span.Proper (s : Span) : Prop where
  seconds : s.seconds < Nat.pow 2 64
  nanos : s.nanos < billion

namespace Json
variable {j : Json} {items : List Json} {members : List (String × Json)} {m : String × Json}

mutual

/-- How many arrays and objects lie inside each other. -/
def nesting : Json → Nat
  | .arr items => itemsNesting items + 1
  | .obj members => membersNesting members + 1
  | _ => 0

def itemsNesting : List Json → Nat
  | [] => 0
  | a :: rest => max (nesting a) (itemsNesting rest)

def membersNesting : List (String × Json) → Nat
  | [] => 0
  | (_, a) :: rest => max (nesting a) (membersNesting rest)

end

theorem nesting_item (there : j ∈ items) : j.nesting < (Json.arr items).nesting := by
  refine Nat.lt_succ_of_le ?_
  induction items with
  | nil => cases there
  | cons a rest ih =>
    rcases List.mem_cons.mp there with rfl | there
    · exact Nat.le_max_left _ _
    · exact Nat.le_trans (ih there) (Nat.le_max_right _ _)

theorem nesting_member (there : m ∈ members) : m.2.nesting < (Json.obj members).nesting := by
  refine Nat.lt_succ_of_le ?_
  induction members with
  | nil => cases there
  | cons a rest ih =>
    rcases List.mem_cons.mp there with rfl | there
    · exact Nat.le_max_left _ _
    · exact Nat.le_trans (ih there) (Nat.le_max_right _ _)

theorem sameItems_self (each : ∀ j ∈ items, same j j = true) : sameItems items items = true := by
  induction items with
  | nil => rfl
  | cons a rest ih => rw [sameItems, each a (.head _), ih fun j there => each j (.tail _ there), Bool.and_self]

theorem sameMembers_self (each : ∀ m ∈ members, same m.2 m.2 = true) : sameMembers members members = true := by
  induction members with
  | nil => rfl
  | cons m rest ih =>
    rw [sameMembers, each m (.head _), ih fun j there => each j (.tail _ there), beq_self_eq_true, Bool.and_self,
      Bool.and_self]

/-- What can be read back is equal to itself, as no part of it is `nan`. -/
theorem same_self (legible : j.Legible) : (j == j) = true := by
  change same j j = true
  induction legible with
  | null => rfl
  | bool b => exact beq_self_eq_true b
  | int => exact beq_self_eq_true _
  | float legible => exact Double.same_self legible.isFinite
  | str s => exact beq_self_eq_true s
  | arr _ ih => exact sameItems_self ih
  | obj _ _ ih => exact sameMembers_self ih

end Json

namespace Table
variable {α : Type} {name : String} {value : α}

/-- A value under a name that is greater than the others goes to the end. -/
theorem insert_last {t : Table α} (greatest : ∀ earlier ∈ t.names, earlier < name) :
    t.insert name value = t ++ [(name, value)] := by
  induction t with
  | nil => rfl
  | cons e rest ih =>
    obtain ⟨n, v⟩ := e
    have before : n < name := greatest n (.head _)
    rw [insert, if_neg (String.ne_of_lt before), if_neg (String.lt_asymm before),
      ih fun earlier there => greatest earlier (.tail _ there)]
    rfl

end Table

namespace Draft
variable {j : Json}

theorem skipItems_drafts {items : List Json} (each : ∀ j ∈ items, j.draft.skip = .ok ()) :
    skipItems (Json.itemDrafts items) = .ok () := by
  induction items with
  | nil => rfl
  | cons a rest ih =>
    rw [Json.itemDrafts, skipItems, each a (.head _)]
    exact ih fun j there => each j (.tail _ there)

theorem skipMembers_drafts {members : List (String × Json)} (each : ∀ m ∈ members, m.2.draft.skip = .ok ()) :
    skipMembers (Json.memberDrafts members) = .ok () := by
  induction members with
  | nil => rfl
  | cons m rest ih =>
    rw [Json.memberDrafts, skipMembers, each m (.head _)]
    exact ih fun m there => each m (.tail _ there)

theorem skip_draft (legible : j.Legible) : j.draft.skip = .ok () := by
  induction legible with
  | arr _ ih =>
    rw [Json.draft, skip, skipItems_drafts ih]
    rfl
  | obj _ _ ih =>
    rw [Json.draft, skip, skipMembers_drafts ih]
    rfl
  | _ => rfl

theorem instant_some (t : Instant) : (Json.ofInstant t).draft ≠ .null := by
  intro null
  rw [Json.ofInstant, Json.draft] at null
  cases null

end Draft

namespace Decode
variable {j : Json} {depth : Nat} {found members : Table Json}

theorem enter_ok (shallow : depth < depthLimit) : enter depth = .ok () := if_neg (Nat.not_le.mpr shallow)

theorem jsonItems_drafts {js : List Json} (each : ∀ j ∈ js, json depth j.draft = .ok j) :
    jsonItems depth (Json.itemDrafts js) = .ok js := by
  induction js with
  | nil => rfl
  | cons a rest ih =>
    rw [Json.itemDrafts, jsonItems, each a (.head _), ih fun j there => each j (.tail _ there)]
    rfl

theorem jsonMembers_drafts (each : ∀ m ∈ members, json depth m.2.draft = .ok m.2)
    (ordered : Table.Ordered (found ++ members)) :
    jsonMembers depth found (Json.memberDrafts members) = .ok (found ++ members) := by
  -- As members come in the order of their names, each of them goes behind those that were found.
  induction members generalizing found with
  | nil => rw [List.append_nil]; rfl
  | cons m rest ih =>
    obtain ⟨name, a⟩ := m
    have greatest : ∀ earlier ∈ found.names, earlier < name := by
      intro earlier there
      rw [Table.Ordered, Table.names, List.map_append] at ordered
      exact (List.pairwise_append.mp ordered).2.2 earlier there name (.head _)
    have split : found ++ (name, a) :: rest = found ++ [(name, a)] ++ rest := by
      rw [List.append_assoc, List.singleton_append]
    rw [split] at ordered ⊢
    rw [Json.memberDrafts, jsonMembers, each (name, a) (.head _), ← ih (fun m there => each m (.tail _ there)) ordered,
      ← Table.insert_last greatest]
    rfl

theorem json_draft (legible : j.Legible) (shallow : depth + j.nesting ≤ depthLimit) : json depth j.draft = .ok j := by
  induction legible generalizing depth with
  | @arr items _ ih =>
    have each : ∀ j ∈ items, json (depth + 1) j.draft = .ok j := by
      intro j there
      have inside := Json.nesting_item there
      exact ih j there (by omega)
    rw [Json.nesting] at shallow
    rw [Json.draft, json, enter_ok (by omega), jsonItems_drafts each]
    rfl
  | @obj members ordered _ ih =>
    have each : ∀ m ∈ members, json (depth + 1) m.2.draft = .ok m.2 := by
      intro m there
      have inside := Json.nesting_member there
      exact ih m there (by omega)
    have all : jsonMembers (depth + 1) [] (Json.memberDrafts members) = .ok members := jsonMembers_drafts each ordered
    rw [Json.nesting] at shallow
    rw [Json.draft, json, enter_ok (by omega), all]
    rfl
  | _ => rfl

theorem table_draft (legible : (Json.obj members).Legible) (shallow : depth + (Json.obj members).nesting ≤ depthLimit) :
    table depth (Json.obj members).draft = .ok members := by
  cases legible with
  | obj ordered each =>
    have read : ∀ m ∈ members, json (depth + 1) m.2.draft = .ok m.2 := by
      intro m there
      have inside := Json.nesting_member there
      exact json_draft (each m there) (by omega)
    have all : jsonMembers (depth + 1) [] (Json.memberDrafts members) = .ok members := jsonMembers_drafts read ordered
    rw [Json.nesting] at shallow
    rw [Json.draft, table, enter_ok (by omega), all]
    rfl

/-! ## Single values -/

theorem int_draft {low high i : Int} (expected : String) (least : low ≤ i) (most : i ≤ high) :
    int low high expected depth (Json.int i).draft = .ok i := if_pos ⟨least, most⟩

theorem nat_draft {bits n : Nat} (expected : String) (within : n < Nat.pow 2 bits) :
    nat bits expected depth (Json.int n).draft = .ok n := by
  rw [nat, int_draft expected (by omega) (by omega)]
  rfl

theorem instant_str {text : String} {t : Instant} (read : Timestamp.read? text = some t) :
    instant depth (.str text) = .ok t := by
  simp only [instant, pure_bind, read]
  rfl

theorem instant_draft {t : Instant} (legible : t.Legible) : instant depth (Json.ofInstant t).draft = .ok t :=
  instant_str legible

theorem amount_str {text : String} {a : Decimal} (read : Decimal.ofText? text = some a) :
    amount depth (.str text) = .ok a := by
  simp only [amount, read]

section
variable {α : Type} {decode : Decoder α} {encode : α → Json}

theorem option_draft {o : Option α} (read : ∀ a ∈ o, decode depth (encode a).draft = .ok a)
    (some : ∀ a, (encode a).draft ≠ .null) : option decode depth (Json.ofOption encode o).draft = .ok o := by
  cases o with
  | none => rfl
  | some a =>
    rw [Json.ofOption, option]
    · rw [read a rfl]
      rfl
    · exact some a

theorem instantOption_draft {o : Option Instant} (legible : ∀ t ∈ o, t.Legible) :
    option instant depth (Json.ofOption Json.ofInstant o).draft = .ok o :=
  option_draft (fun t there => instant_draft (legible t there)) fun t => Draft.instant_some t

theorem list_draft {l : List α} (shallow : depth + (Json.arr (l.map encode)).nesting ≤ depthLimit)
    (read : ∀ a ∈ l, ∀ depth, depth + (encode a).nesting ≤ depthLimit → decode depth (encode a).draft = .ok a) :
    list decode depth (Json.arr (l.map encode)).draft = .ok l := by
  have each : ∀ a ∈ l, decode (depth + 1) (encode a).draft = .ok a := by
    intro a there
    have inside := Json.nesting_item (List.mem_map_of_mem (f := encode) there)
    exact read a there (depth + 1) (by omega)
  rw [Json.nesting] at shallow
  rw [Json.draft, Decode.list, enter_ok (by omega)]
  simp only [bind, Except.bind, items_drafts each]
  rfl

end

/-- A part of a record that is read goes into its field. -/
theorem put_ok {α β : Type} {m : Except Fault β} {b : β} (read : m = .ok b) (f : β → α) :
    (do return f (← m)) = Except.ok (f b) := by
  rw [read]
  rfl

end Decode

namespace Shape
variable {α : Type}

def knows (s : Shape α) (name : String) : Bool := s.fields.any (·.1 = name)

/-- One member after another is read into the record, or passed over. -/
inductive Takes (s : Shape α) (depth : Nat) : α → List String → List (String × Json) → α → List String → Prop where
  | nil : Takes s depth record seen [] record seen
  | field (known : s.knows name = true) (fresh : name ∉ seen)
      (put : s.put name record depth j.draft = .ok record') (rest : Takes s depth record' (name :: seen) ms last seen') :
      Takes s depth record seen ((name, j) :: ms) last seen'
  | other (unknown : s.knows name = false) (lax : s.exact = false) (skip : j.draft.skip = .ok ())
      (rest : Takes s depth record seen ms last seen') : Takes s depth record seen ((name, j) :: ms) last seen'

variable {s : Shape α} {depth : Nat} {record record' : α} {seen seen' : List String} {members : List (String × Json)}

theorem members_takes (takes : s.Takes depth record seen members record' seen') :
    s.members depth record seen (Json.memberDrafts members) = .ok (record', seen') := by
  induction takes with
  | nil => rfl
  | field known fresh put _ ih =>
    rw [knows] at known
    rw [Json.memberDrafts, Shape.members, if_pos known, if_neg fresh, put]
    exact ih
  | other unknown lax skip _ ih =>
    rw [knows] at unknown
    rw [Json.memberDrafts, Shape.members, if_neg (by rw [unknown]; nofun), if_neg (by rw [lax]; nofun), skip]
    exact ih

theorem decode_takes (takes : s.Takes (depth + 1) s.start [] members record seen) (shallow : depth < Decode.depthLimit)
    (complete : ∀ f ∈ s.fields, f.2 = .required → f.1 ∈ seen) :
    s.decode depth (Json.obj members).draft = .ok record := by
  have none : s.fields.find? (fun f => f.2 = .required ∧ f.1 ∉ seen) = none := by
    refine List.find?_eq_none.mpr fun f there missing => ?_
    obtain ⟨required, absent⟩ := of_decide_eq_true missing
    exact absent (complete f there required)
  rw [Json.draft, decode, Decode.enter_ok shallow]
  simp only [bind, Except.bind, members_takes takes, Draft.tailFault, none]
  rfl

/-- If each member gives the record one part more, it does not matter which come, and in which order. -/
theorem takes_parts (part : List String → α) (seen : List String) (lax : s.exact = false)
    (fields : ∀ m ∈ members, s.knows m.1 = true → ∀ seen, m.1 ∉ seen →
      s.put m.1 (part seen) depth m.2.draft = .ok (part (m.1 :: seen)))
    (others : ∀ m ∈ members, s.knows m.1 = false → m.2.draft.skip = .ok ())
    (once : ((members.map (·.1)).filter s.knows).Nodup)
    (fresh : ∀ name ∈ seen, name ∉ (members.map (·.1)).filter s.knows) :
    ∃ seen', s.Takes depth (part seen) seen members (part seen') seen' ∧
      ∀ name, name ∈ seen' ↔ name ∈ seen ∨ name ∈ (members.map (·.1)).filter s.knows := by
  -- Only the names of fields are seen, so that those of other members may come again.
  induction members generalizing seen with
  | nil => exact ⟨seen, .nil, fun name => by simp⟩
  | cons m rest ih =>
    obtain ⟨name, j⟩ := m
    have fields' := fun m there => fields m (.tail _ there)
    have others' := fun m there => others m (.tail _ there)
    cases known : s.knows name with
    | true =>
      have filtered : (((name, j) :: rest).map (·.1)).filter s.knows = name :: (rest.map (·.1)).filter s.knows := by
        rw [List.map_cons, List.filter_cons_of_pos known]
      rw [filtered] at once fresh ⊢
      obtain ⟨single, once'⟩ := List.nodup_cons.mp once
      have new : name ∉ seen := fun there => fresh name there (.head _)
      have fresh' : ∀ other ∈ name :: seen, other ∉ (rest.map (·.1)).filter s.knows := by
        intro other there
        rcases List.mem_cons.mp there with rfl | there
        · exact single
        · exact fun later => fresh other there (.tail _ later)
      obtain ⟨seen', takes, all⟩ := ih (name :: seen) fields' others' once' fresh'
      refine ⟨seen', .field known new (fields (name, j) (.head _) known seen new) takes, fun other => ?_⟩
      rw [all, List.mem_cons, List.mem_cons, or_assoc, or_left_comm]
    | false =>
      have filtered : (((name, j) :: rest).map (·.1)).filter s.knows = (rest.map (·.1)).filter s.knows := by
        rw [List.map_cons, List.filter_cons_of_neg (by rw [known]; nofun)]
      rw [filtered] at once fresh ⊢
      obtain ⟨seen', takes, all⟩ := ih seen fields' others' once fresh
      exact ⟨seen', .other known lax (others (name, j) (.head _) known) takes, all⟩

/-- The members without those of some fields that have defaults, and with others that are of no field, in any order. -/
structure Edited (s : Shape α) (members : List (String × Json)) (removed : List String)
    (added edited : List (String × Json)) : Prop where
  defaulted : ∀ name ∈ removed, (name, .defaulted) ∈ s.fields
  foreign : ∀ m ∈ added, s.knows m.1 = false ∧ m.2.Legible
  parts : edited.Perm (members.filter (fun m => m.1 ∉ removed) ++ added)

namespace Edited
variable {removed : List String} {added edited : List (String × Json)} {m : String × Json}

theorem unedited (s : Shape α) (members : List (String × Json)) : s.Edited members [] [] members where
  defaulted := nofun
  foreign := nofun
  parts := by simp

section
variable (edits : s.Edited members removed added edited)
include edits

theorem mem_iff : m ∈ edited ↔ m ∈ members ∧ m.1 ∉ removed ∨ m ∈ added := by
  rw [edits.parts.mem_iff, List.mem_append, List.mem_filter, decide_eq_true_eq]

theorem field (there : m ∈ edited) (known : s.knows m.1 = true) : m ∈ members := by
  rcases edits.mem_iff.mp there with ⟨own, _⟩ | new
  · exact own
  · exact nomatch known.symm.trans (edits.foreign m new).1

theorem reads (each : ∀ m ∈ members, Draft.Reads m.2) : ∀ m ∈ edited, Draft.Reads m.2 := by
  intro m there
  rcases edits.mem_iff.mp there with ⟨own, _⟩ | new
  · exact each m own
  · exact Draft.reads_legible (edits.foreign m new).2

theorem once (distinct : (members.map (·.1)).Nodup) : ((edited.map (·.1)).filter s.knows).Nodup := by
  have names := (edits.parts.map (·.1)).filter s.knows
  have none : (added.map (·.1)).filter s.knows = [] := by
    rw [List.filter_eq_nil_iff]
    intro name there
    obtain ⟨m, new, rfl⟩ := List.mem_map.mp there
    rw [(edits.foreign m new).1]
    nofun
  rw [List.map_append, List.filter_append, none, List.append_nil] at names
  exact names.nodup_iff.mpr ((distinct.sublist (List.filter_sublist.map _)).filter _)

variable (known : ∀ m ∈ members, s.knows m.1 = true)
include known

theorem other (there : m ∈ edited) (unknown : s.knows m.1 = false) : m.2.draft.skip = .ok () := by
  rcases edits.mem_iff.mp there with ⟨own, _⟩ | new
  · exact nomatch unknown.symm.trans (known m own)
  · exact Draft.skip_draft (edits.foreign m new).2

theorem kept (there : m ∈ members) : m.1 ∈ edited.map (·.1) ↔ m.1 ∉ removed := by
  rw [List.mem_map]
  constructor
  · rintro ⟨m', there', same⟩
    rcases edits.mem_iff.mp there' with ⟨_, kept⟩ | new
    · exact same ▸ kept
    · have unknown := (edits.foreign m' new).1
      rw [same, known m there] at unknown
      cases unknown
  · exact fun kept => ⟨m, edits.mem_iff.mpr (.inl ⟨there, kept⟩), rfl⟩

end
end Edited

/-- Whichever parts the members give, the fields that they are of are those that the record has in the end. -/
theorem decode_edited (part : List String → α) {removed : List String} {added edited : List (String × Json)}
    (edits : s.Edited members removed added edited) (known : ∀ m ∈ members, s.knows m.1 = true)
    (distinct : (members.map (·.1)).Nodup) (shallow : depth < Decode.depthLimit) (lax : s.exact = false)
    (start : s.start = part []) (fields : ∀ m ∈ members, ∀ seen, m.1 ∉ seen →
      s.put m.1 (part seen) (depth + 1) m.2.draft = .ok (part (m.1 :: seen)))
    (complete : ∀ f ∈ s.fields, f.2 = .required → f.1 ∈ members.map (·.1) ∧ (f.1, .defaulted) ∉ s.fields) :
    ∃ seen, s.decode depth (Json.obj edited).draft = .ok (part seen) ∧
      ∀ m ∈ members, m.1 ∈ seen ↔ m.1 ∉ removed := by
  have fields' : ∀ m ∈ edited, s.knows m.1 = true → ∀ seen, m.1 ∉ seen →
      s.put m.1 (part seen) (depth + 1) m.2.draft = .ok (part (m.1 :: seen)) :=
    fun m there known' => fields m (edits.field there known')
  obtain ⟨seen, takes, all⟩ := takes_parts part [] lax fields' (fun m there => edits.other known there)
    (edits.once distinct) nofun
  have seen_iff : ∀ m ∈ members, m.1 ∈ seen ↔ m.1 ∉ removed := by
    intro m there
    rw [all, List.mem_filter, edits.kept known there]
    simp [known m there]
  refine ⟨seen, decode_takes (start ▸ takes) shallow fun f there required => ?_, seen_iff⟩
  obtain ⟨own, always⟩ := complete f there required
  obtain ⟨m, own, same⟩ := List.mem_map.mp own
  rw [← same] at always ⊢
  exact (seen_iff m own).mpr fun gone => always (edits.defaulted m.1 gone)

end Shape
end Handover
