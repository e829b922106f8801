import ConnectorKeeper.Proofs.PrintedTexts
import ConnectorKeeper.Proofs.WrittenMembers

/-!
# Trees that are read back

A tree of any shape is kept as it is read: its keys in ascending order, of a repeated
one the last value (`Tree.of_decoder`).  Such a tree is printed, read and decoded again
without a change (`Tree.decoder_eq`), but for its numbers, which come back as their
texts say (`Tree.reread`).

Whether the text of a number settles at once (`Number.Settles`) is assumed where the
number is not kept exactly: reading rounds more than once, and some doubles drift.
-/

namespace ConnectorKeeper.Json

/-! ## Numbers -/

/-- The text of a number is read as a finite number with the same text. -/
def Number.Settles (n : Number) : Prop :=
  ∃ n', readNumber (n.chars.map some) = some (n', []) ∧ n'.finite = true ∧ n'.chars = n.chars

instance (n : Number) : Decidable n.Settles :=
  decidable_of_iff (∃ p ∈ readNumber (n.chars.map some),
      p.2 = [] ∧ p.1.finite = true ∧ p.1.chars = n.chars)
    ⟨fun ⟨(n', _), h, hrest, hn'⟩ => ⟨n', hrest ▸ h, hn'⟩,
      fun ⟨n', h, hn'⟩ => ⟨(n', []), h, rfl, hn'⟩⟩

/-- A double may need two readings, as its significand is rounded before it is divided. -/
example : ¬ (Number.decimal false "123456789".toList "123456789".toList 0).Settles := by
  decide +kernel

/-- A number that is kept exactly. -/
def Number.isExact : Number → Bool
  | .integer n => exact n
  | .decimal .. => false

/-- A number that is kept exactly is read back. -/
theorem Number.readNumber_of_isExact {n : Number} (h : n.isExact = true) :
    readNumber (n.chars.map some) = some (n, []) := by
  cases n with
  | integer n => exact readNumber_integer h
  | decimal => cases h

mutual
/-- The numbers of a value. -/
def numbers : Json → List Number
  | .number n => [n]
  | .array items => itemsNumbers items
  | .object members => membersNumbers members
  | _ => []

/-- The numbers of all items. -/
def itemsNumbers : List Json → List Number
  | [] => []
  | v :: rest => numbers v ++ itemsNumbers rest

/-- The numbers of all members. -/
def membersNumbers : List (Option String × Json) → List Number
  | [] => []
  | (_, v) :: rest => numbers v ++ membersNumbers rest
end

theorem mem_numbers_array {n : Number} {items : List Json} :
    n ∈ numbers (.array items) ↔ ∃ v ∈ items, n ∈ numbers v := by
  rw [numbers]
  induction items with
  | nil => simp [itemsNumbers]
  | cons v vs ih => simp [itemsNumbers, ih]

/-- The numbers of an object are those of its members. -/
theorem mem_numbers_object {n : Number} {ms : List (Option String × Json)} :
    n ∈ numbers (.object ms) ↔ ∃ m ∈ ms, n ∈ numbers m.2 := by
  rw [numbers]
  induction ms with
  | nil => simp [membersNumbers]
  | cons m ms ih =>
    rw [membersNumbers, List.mem_append, ih]
    simp

theorem mem_numbers_record {n : Number} {ms : List (String × Json)} :
    n ∈ numbers (record ms) ↔ ∃ m ∈ ms, n ∈ numbers m.2 := by
  rw [record, mem_numbers_object]
  simp only [List.mem_map, exists_exists_and_eq_and]

/-! ## Trees -/

/-- A value of any shape as it is kept, at a place below which containers may nest so deep. -/
inductive Tree : Nat → Json → Prop
  | null {room : Nat} : Tree room .null
  | bool {room : Nat} (b : Bool) : Tree room (.bool b)
  | number {room : Nat} {n : Number} (h : n.finite = true) : Tree room (.number n)
  | text {room : Nat} (s : String) : Tree room (.text s)
  | array {room : Nat} {items : List Json} (h : ∀ v ∈ items, Tree room v) :
      Tree (room + 1) (.array items)
  | record {room : Nat} {members : List (String × Json)} (hkeys : members.Pairwise (·.1 < ·.1))
      (h : ∀ m ∈ members, Tree room m.2) : Tree (room + 1) (.record members)

variable {room : Nat} {v w : Json}

theorem sortedItems_eq {items : List Json} (h : ∀ v ∈ items, sorted v = v) :
    sortedItems items = items := by
  induction items with
  | nil => rfl
  | cons v vs ih =>
    rw [sortedItems, h v List.mem_cons_self, ih fun w hw => h w (List.mem_cons_of_mem _ hw)]

/-- Members in the order of their keys stay where they are. -/
theorem sortedMembers_asMembers {ms : List (String × Json)} (hkeys : ms.Pairwise (·.1 < ·.1))
    (h : ∀ m ∈ ms, sorted m.2 = m.2) : sortedMembers (asMembers ms) = asMembers ms := by
  induction ms with
  | nil => rfl
  | cons m ms ih =>
    rw [List.pairwise_cons] at hkeys
    have hrest := ih hkeys.2 fun w hw => h w (List.mem_cons_of_mem _ hw)
    show sortedMembers ((some m.1, m.2) :: asMembers ms) = _
    rw [sortedMembers, hrest, h m List.mem_cons_self]
    cases ms with
    | nil => rfl
    | cons m' ms => exact if_pos (hkeys.1 m' List.mem_cons_self)

/-- A value as it is kept is sorted already. -/
theorem Tree.sorted_eq (h : Tree room v) : sorted v = v := by
  induction h with
  | null | bool | number | text => rfl
  | array _ ih => rw [sorted, sortedItems_eq ih]
  | record hkeys _ ih => rw [record_eq, sorted, sortedMembers_asMembers hkeys ih]

/-- A member is placed among sorted ones so that they stay sorted. -/
theorem exists_place {key : String} {ms : List (String × Json)}
    (hkeys : ms.Pairwise (·.1 < ·.1)) :
    ∃ ms', sortedMembers.place (some key) v (asMembers ms) = asMembers ms' ∧
      ms'.Pairwise (·.1 < ·.1) ∧ ∀ m ∈ ms', m = (key, v) ∨ m ∈ ms := by
  induction ms with
  | nil => exact ⟨[(key, v)], rfl, List.pairwise_singleton .., by simp⟩
  | cons m ms ih =>
    obtain ⟨k, w⟩ := m
    have hm := List.pairwise_cons.1 hkeys
    show ∃ ms', sortedMembers.place (some key) v ((some k, w) :: asMembers ms) = _ ∧ _
    simp only [sortedMembers.place, Option.getD_some, Option.some.injEq]
    split
    · next hlt =>
      refine ⟨(key, v) :: (k, w) :: ms, rfl, List.pairwise_cons.2 ⟨?_, hkeys⟩, by simp⟩
      intro m hmem
      cases List.mem_cons.1 hmem with
      | inl heq => exact heq ▸ hlt
      | inr hmem => exact String.lt_trans hlt (hm.1 m hmem)
    · next hnlt =>
      split
      · exact ⟨(k, w) :: ms, rfl, hkeys, fun m hmem => .inr hmem⟩
      · next hne =>
        obtain ⟨ms', heq, hkeys', hmem'⟩ := ih hm.2
        refine ⟨(k, w) :: ms', by rw [heq]; rfl, List.pairwise_cons.2 ⟨?_, hkeys'⟩, ?_⟩
        · intro m hmem
          cases hmem' m hmem with
          | inl heq => exact heq ▸ StringMap.lt_of_not_lt_of_ne hnlt hne
          | inr hmem => exact hm.1 m hmem
        · intro m hmem
          cases List.mem_cons.1 hmem with
          | inl heq => exact .inr (heq ▸ List.mem_cons_self)
          | inr hmem => exact (hmem' m hmem).imp_right (List.mem_cons_of_mem _)

/-- Members whose values are sorted are sorted among themselves. -/
theorem exists_sortedMembers {ms : List (String × Json)} (h : ∀ m ∈ ms, sorted m.2 = m.2) :
    ∃ ms', sortedMembers (asMembers ms) = asMembers ms' ∧ ms'.Pairwise (·.1 < ·.1) ∧
      ms' ⊆ ms := by
  induction ms with
  | nil => exact ⟨[], rfl, .nil, List.nil_subset _⟩
  | cons m ms ih =>
    obtain ⟨ms', heq, hkeys, hsubset⟩ := ih fun w hw => h w (List.mem_cons_of_mem _ hw)
    obtain ⟨ms'', heq', hkeys', hmem⟩ := @exists_place m.2 m.1 ms' hkeys
    refine ⟨ms'', ?_, hkeys', ?_⟩
    · show sortedMembers ((some m.1, m.2) :: asMembers ms) = _
      rw [sortedMembers, heq, h m List.mem_cons_self, heq']
    · intro w hw
      cases hmem w hw with
      | inl heq => exact heq ▸ List.mem_cons_self
      | inr hw => exact List.mem_cons_of_mem _ (hsubset hw)

/-- No number that is kept is infinite. -/
theorem Tree.finite (h : Tree room v) {n : Number} (hn : n ∈ v.numbers) : n.finite = true := by
  induction h with
  | null | bool | text => cases hn
  | number h => exact List.mem_singleton.1 hn ▸ h
  | array _ ih =>
    obtain ⟨v, hv, hn⟩ := mem_numbers_array.1 hn
    exact ih v hv hn
  | record _ _ ih =>
    obtain ⟨m, hm, hn⟩ := mem_numbers_record.1 hn
    exact ih m hm hn

/-- It is enough that the numbers settle which are not exact. -/
theorem Tree.settles (h : Tree room v) (hnumbers : ∀ n ∈ v.numbers, n.isExact = false → n.Settles) :
    ∀ n ∈ v.numbers, n.Settles := by
  intro n hn
  cases hexact : n.isExact with
  | false => exact hnumbers n hn hexact
  | true => exact ⟨n, n.readNumber_of_isExact hexact, h.finite hn, rfl⟩

/-! ## Trees as they are decoded -/

open Decoder (tree treeItems treeMembers)

mutual
/-- What is decoded as a tree is one. -/
theorem Tree.of_decoder : ∀ {room : Nat} (v : Json) {w : Json}, tree room v = .value w → Tree room w
  | _, .null, _, h => by
    cases h
    exact .null
  | _, .bool b, _, h => by
    cases h
    exact .bool b
  | _, .number n, _, h => by
    rw [tree] at h
    split at h
    · next hfinite =>
      cases h
      exact .number hfinite
    · cases h
  | _, .string (some s), _, h => by
    cases h
    exact .text s
  | _, .string none, _, h => by cases h
  | _, .cut, _, h => by cases h
  | 0, .array items, _, h => by cases h
  | room + 1, .array items, _, h => by
    rw [tree, Decoded.map_eq_value_iff] at h
    obtain ⟨items', hitems, rfl⟩ := h
    exact .array (Tree.of_decodeItems items hitems)
  | 0, .object members, _, h => by cases h
  | room + 1, .object members, _, h => by
    rw [tree, Decoded.map_eq_value_iff] at h
    obtain ⟨_, hmembers, rfl⟩ := h
    obtain ⟨ms, rfl, hms⟩ := Tree.of_decodeMembers members hmembers
    obtain ⟨ms', heq, hkeys, hsubset⟩ := exists_sortedMembers fun m hm => (hms m hm).sorted_eq
    rw [heq]
    exact .record hkeys fun m hm => hms m (hsubset hm)

/-- Items that were read are kept as they are. -/
theorem Tree.of_decodeItems : ∀ {room index : Nat} (vs : List Json) {ws : List Json},
    treeItems room index vs = .value ws → ∀ w ∈ ws, Tree room w
  | _, _, [], _, h => by
    cases h
    exact List.forall_mem_nil _
  | room, index, v :: vs, _, h => by
    rw [treeItems, Decoded.seq_eq_value_iff] at h
    simp only [Decoded.map_eq_value_iff, Decoded.under_eq_value_iff] at h
    obtain ⟨_, ws, ⟨w, hw, rfl⟩, hws, rfl⟩ := h
    exact List.forall_mem_cons.2 ⟨Tree.of_decoder v hw, Tree.of_decodeItems vs hws⟩

/-- Members that were read have keys, and are kept as they are. -/
theorem Tree.of_decodeMembers : ∀ {room index : Nat} (ms : List (Option String × Json))
    {ws : List (Option String × Json)}, treeMembers room index ms = .value ws →
      ∃ ms', ws = asMembers ms' ∧ ∀ m ∈ ms', Tree room m.2
  | _, _, [], _, h => by
    cases h
    exact ⟨[], rfl, List.forall_mem_nil _⟩
  | room, index, (key, v) :: ms, _, h => by
    rw [treeMembers, Decoded.seq_eq_value_iff] at h
    simp only [Decoded.seq_eq_value_iff, Decoded.map_eq_value_iff, Decoded.under_eq_value_iff] at h
    obtain ⟨_, ws, ⟨_, ⟨_, w, ⟨_, ⟨k, -, rfl⟩, rfl⟩, hw, rfl⟩, rfl⟩, hws, rfl⟩ := h
    obtain ⟨ms', rfl, hms'⟩ := Tree.of_decodeMembers ms hws
    exact ⟨(k, w) :: ms', rfl, List.forall_mem_cons.2 ⟨Tree.of_decoder v hw, hms'⟩⟩
end

/-- Null is decoded from null alone. -/
theorem Tree.eq_null_of_decoder (h : tree room v = .value .null) : v = .null := by
  cases v with
  | null => rfl
  | bool | cut => cases h
  | string s => cases s <;> cases h
  | number n => cases hn : n.finite <;> simp [tree, hn, Decoded.fail] at h
  | array items =>
    cases room with
    | zero => cases h
    | succ room => simp [tree, Decoded.map_eq_value_iff] at h
  | object ms =>
    cases room with
    | zero => cases h
    | succ room => simp [tree, Decoded.map_eq_value_iff] at h

/-- Reading items that are kept already changes nothing. -/
theorem treeItems_eq {items : List Json} (h : ∀ v ∈ items, tree room v = .value v)
    (index : Nat) : treeItems room index items = .value items := by
  induction items generalizing index with
  | nil => rfl
  | cons v vs ih =>
    rw [treeItems, h v List.mem_cons_self, ih fun w hw => h w (List.mem_cons_of_mem _ hw)]
    rfl

/-- Nor does reading such members. -/
theorem treeMembers_eq {ms : List (String × Json)} (h : ∀ m ∈ ms, tree room m.2 = .value m.2)
    (index : Nat) : treeMembers room index (asMembers ms) = .value (asMembers ms) := by
  induction ms generalizing index with
  | nil => rfl
  | cons m ms ih =>
    show treeMembers room index ((some m.1, m.2) :: asMembers ms) = _
    rw [treeMembers, h m List.mem_cons_self, ih fun w hw => h w (List.mem_cons_of_mem _ hw)]
    rfl

/-- A tree is decoded as it is. -/
theorem Tree.decoder_eq (h : Tree room v) : tree room v = .value v := by
  induction h with
  | null | bool | text => rfl
  | number h => rw [tree, if_pos h]
  | array _ ih =>
    rw [tree, treeItems_eq ih]
    rfl
  | record hkeys hms ih =>
    rw [record_eq, tree, treeMembers_eq ih, Decoded.map_value,
      sortedMembers_asMembers hkeys fun m hm => (hms m hm).sorted_eq]

/-! ## Trees as they are printed -/

/-- An object is legible if its members are. -/
theorem legible_record {ms : List (String × Json)} (h : ∀ m ∈ ms, Legible m.2) :
    Legible (record ms) := by
  rw [record_eq]
  refine .object ?_ ?_
  · intro m hm
    obtain ⟨m', -, rfl⟩ := List.mem_map.1 hm
    rfl
  · intro m hm
    obtain ⟨m', hm', rfl⟩ := List.mem_map.1 hm
    exact h m' hm'

theorem legible_optional {α : Type} {key : String} {enc : α → Json} {a : Option α}
    (h : ∀ x ∈ a, Legible (enc x)) : ∀ m ∈ optional key (a.map enc), Legible m.2 := by
  cases a with
  | none => exact List.forall_mem_nil _
  | some x => exact List.forall_mem_singleton.2 (h x rfl)

theorem legible_array {α : Type} {enc : α → Json} {l : List α} (h : ∀ x ∈ l, Legible (enc x)) :
    Legible (array (l.map enc)) := by
  refine .array fun v hv => ?_
  obtain ⟨x, hx, rfl⟩ := List.mem_map.1 hv
  exact h x hx

theorem legible_int {n : Int} (h : Number.exact n = true) : Legible (int n) :=
  .number (readNumber_integer h) rfl

/-- A value as it is kept can be printed and read if its numbers settle. -/
theorem Tree.legible (h : Tree room v) (hnumbers : ∀ n ∈ v.numbers, n.Settles) : Legible v := by
  induction h with
  | null => exact .null
  | bool b => exact .bool b
  | number h =>
    obtain ⟨n', hread, -, hchars⟩ := hnumbers _ (List.mem_singleton_self _)
    exact .number hread hchars
  | text s => exact .text s
  | array _ ih =>
    exact .array fun v hv => ih v hv fun n hn => hnumbers n (mem_numbers_array.2 ⟨v, hv, hn⟩)
  | record _ _ ih =>
    exact legible_record fun m hm => ih m hm fun n hn =>
      hnumbers n (mem_numbers_record.2 ⟨m, hm, hn⟩)

theorem reread_text (s : String) : (text s).reread = text s := rfl

theorem reread_bool (b : Bool) : (bool b).reread = bool b := rfl

theorem reread_int {n : Int} (h : Number.exact n = true) : (int n).reread = int n := by
  rw [int, reread, Number.reread, readNumber_integer h]
  rfl

/-- An array is read again item by item. -/
theorem reread_array (items : List Json) : (array items).reread = array (items.map reread) := by
  rw [reread, rereadItems_eq]

theorem reread_ne_null (h : v ≠ .null) : v.reread ≠ .null := by
  cases v with
  | null => exact absurd rfl h
  | bool | number | string | array | object | cut => simp [reread]

theorem map_optional (key : String) (v : Option Json) :
    (optional key v).map (fun m => (m.1, m.2.reread)) = optional key (v.map reread) := by
  cases v <;> rfl

/-- An object is read again member by member. -/
theorem reread_record (ms : List (String × Json)) :
    (record ms).reread = record (ms.map fun m => (m.1, m.2.reread)) := by
  rw [record, record, reread, rereadMembers_eq, List.map_map, List.map_map]
  rfl

/-- A value that is read again is one as it is kept. -/
theorem Tree.reread (h : Tree room v) (hnumbers : ∀ n ∈ v.numbers, n.Settles) :
    Tree room v.reread := by
  induction h with
  | null => exact .null
  | bool b => exact .bool b
  | number h =>
    obtain ⟨n', hread, hfinite, -⟩ := hnumbers _ (List.mem_singleton_self _)
    rw [Json.reread, Number.reread, hread]
    exact .number hfinite
  | text s => exact .text s
  | array _ ih =>
    rw [Json.reread, rereadItems_eq]
    refine .array fun w hw => ?_
    obtain ⟨v, hv, rfl⟩ := List.mem_map.1 hw
    exact ih v hv fun n hn => hnumbers n (mem_numbers_array.2 ⟨v, hv, hn⟩)
  | record hkeys _ ih =>
    rw [reread_record]
    refine .record (List.pairwise_map.2 hkeys) fun w hw => ?_
    obtain ⟨m, hm, rfl⟩ := List.mem_map.1 hw
    exact ih m hm fun n hn => hnumbers n (mem_numbers_record.2 ⟨m, hm, hn⟩)

/-- A tree whose numbers are read back as they are is read back as it is. -/
theorem Tree.reread_eq (h : Tree room v) (hnumbers : ∀ n ∈ v.numbers, n.reread = n) :
    v.reread = v := by
  induction h with
  | null | bool | text => rfl
  | number h => rw [Json.reread, hnumbers _ (List.mem_singleton_self _)]
  | @array _ items _ ih =>
    have hitems : ∀ v ∈ items, v.reread = id v := fun v hv =>
      ih v hv fun n hn => hnumbers n (mem_numbers_array.2 ⟨v, hv, hn⟩)
    rw [Json.reread, rereadItems_eq, List.map_congr_left hitems, List.map_id]
  | @record _ ms _ _ ih =>
    have hms : ∀ m ∈ ms, (m.1, m.2.reread) = id m := fun m hm =>
      Prod.ext rfl (ih m hm fun n hn => hnumbers n (mem_numbers_record.2 ⟨m, hm, hn⟩))
    rw [reread_record, List.map_congr_left hms, List.map_id]

end ConnectorKeeper.Json
