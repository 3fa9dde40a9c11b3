/-
# JSON documents

How a value is written is a grammar beside the reader: words, numbers, strings,
and arrays and objects with white space around their items (`Writes`). A
document is a value with white space around it (`Document`). The reader yields
the value of every document, whatever the steps that it is given beyond twice
the length of the text, and what it yields is the value of a document. So it
accepts the documents of the grammar and no other text
(`Json.ofText?_eq_some_iff`).

Key definitions: `Json.Writes`, `Json.Document`.
Key theorems: `Json.Writes.read`, `Json.exists_writes_of_readValue`,
`Json.ofText?_eq_some_iff`.
-/
import Offside.Proofs.Scalars

namespace Offside
namespace Json

/-! ### White space -/

/-- A text of white space. -/
def Spaces (t : Text) : Prop := ∀ c ∈ t, isSpace c = true

instance (t : Text) : Decidable (Spaces t) := decidable_of_iff (t.all isSpace = true) List.all_eq_true

theorem dropWhile_spaces {s : Text} (hs : Spaces s) (t : Text) :
    (s ++ t).dropWhile isSpace = t.dropWhile isSpace := List.dropWhile_append_of_pos hs

theorem exists_spaces (t : Text) : ∃ s, Spaces s ∧ t = s ++ t.dropWhile isSpace :=
  ⟨t.takeWhile isSpace, List.all_eq_true.1 List.all_takeWhile, List.takeWhile_append_dropWhile.symm⟩

theorem dropWhile_dropWhile (t : Text) : (t.dropWhile isSpace).dropWhile isSpace = t.dropWhile isSpace := by
  obtain ⟨s, hs, ht⟩ := exists_spaces t
  have hdrop := dropWhile_spaces hs (t.dropWhile isSpace)
  rw [← ht] at hdrop
  exact hdrop.symm

/-! ### The grammar -/

/-- A key with white space around it. -/
inductive WritesKey : List Nat → Text → Prop where
  | mk {before after t : Text} {us : List Nat} (hbefore : Spaces before) (h : Spells us t) (hafter : Spaces after) :
    WritesKey us (before ++ '"' :: (t ++ '"' :: after))

mutual

/-- How a value is written. -/
inductive Writes : Json → Text → Prop where
  | null : Writes .null "null"
  | yes : Writes (.bool true) "true"
  | no : Writes (.bool false) "false"
  | number {t : Text} (h : IsNumber t) : Writes (.number t) t
  | string {us : List Nat} {t : Text} (h : Spells us t) : Writes (.string us) ('"' :: (t ++ ['"']))
  | emptyArray {s : Text} (hs : Spaces s) : Writes (.array []) ('[' :: (s ++ [']']))
  | array {items : List Json} {t : Text} (h : WritesItems items t) : Writes (.array items) ('[' :: (t ++ [']']))
  | emptyObject {s : Text} (hs : Spaces s) : Writes (.object []) ('\x7b' :: (s ++ ['\x7d']))
  | object {members : List (List Nat × Json)} {t : Text} (h : WritesMembers members t) :
    Writes (.object members) ('\x7b' :: (t ++ ['\x7d']))

/-- How a value is written with white space around it. -/
inductive Document : Json → Text → Prop where
  | mk {j : Json} {before t after : Text} (hbefore : Spaces before) (h : Writes j t) (hafter : Spaces after) :
    Document j (before ++ (t ++ after))

/-- How the items of an array are written, at least one. -/
inductive WritesItems : List Json → Text → Prop where
  | last {item : Json} {t : Text} (h : Document item t) : WritesItems [item] t
  | more {item : Json} {items : List Json} {t ts : Text} (h : Document item t) (hmore : WritesItems items ts) :
    WritesItems (item :: items) (t ++ ',' :: ts)

/-- How the members of an object are written, at least one. -/
inductive WritesMembers : List (List Nat × Json) → Text → Prop where
  | last {key : List Nat} {value : Json} {k v : Text} (hk : WritesKey key k) (h : Document value v) :
    WritesMembers [(key, value)] (k ++ ':' :: v)
  | more {key : List Nat} {value : Json} {members : List (List Nat × Json)} {k v ts : Text} (hk : WritesKey key k)
    (h : Document value v) (hmore : WritesMembers members ts) :
    WritesMembers ((key, value) :: members) (k ++ ':' :: (v ++ ',' :: ts))

end

/-! ### First characters -/

theorem EndsNumber.spaces {s rest : Text} (hs : Spaces s) (h : EndsNumber rest) : EndsNumber (s ++ rest) := by
  cases s with
  | nil => exact h
  | cons c cs =>
    intro d hd
    obtain rfl := Option.some.inj hd
    have hc := hs c (List.mem_cons_self ..)
    simp only [isSpace, Bool.or_eq_true, beq_iff_eq] at hc
    rcases hc with ((rfl | rfl) | rfl) | rfl <;> rfl

theorem isSpace_of_isDigit {c : Char} (h : c.isDigit = true) : isSpace c = false := by
  rw [Bool.eq_false_iff]
  intro hspace
  simp only [isSpace, Bool.or_eq_true, beq_iff_eq] at hspace
  rcases hspace with ((rfl | rfl) | rfl) | rfl <;> cases h

theorem Writes.exists_head {j : Json} {t : Text} (h : Writes j t) :
    ∃ c cs, t = c :: cs ∧ isSpace c = false ∧ c ≠ ']' := by
  cases h with
  | number h =>
    obtain ⟨c, cs, rfl, hc⟩ := h.exists_head
    rcases hc with hc | rfl
    · refine ⟨c, cs, rfl, isSpace_of_isDigit hc, ?_⟩
      rintro rfl
      cases hc
    · exact ⟨_, _, rfl, rfl, by decide⟩
  | _ => exact ⟨_, _, rfl, rfl, by decide⟩

theorem Document.exists_head {j : Json} {t : Text} (h : Document j t) (rest : Text) :
    ∃ c cs, (t ++ rest).dropWhile isSpace = c :: cs ∧ c ≠ ']' := by
  cases h with
  | @mk _ before t after hbefore h =>
    obtain ⟨c, cs, rfl, hspace, hc⟩ := h.exists_head
    refine ⟨c, cs ++ after ++ rest, ?_, hc⟩
    rw [List.append_assoc, dropWhile_spaces hbefore, List.cons_append, List.cons_append,
      List.dropWhile_cons_of_neg (by rw [hspace]; decide)]

theorem WritesItems.exists_head {items : List Json} {t : Text} (h : WritesItems items t) (rest : Text) :
    ∃ c cs, (t ++ rest).dropWhile isSpace = c :: cs ∧ c ≠ ']' := by
  cases h with
  | last h => exact h.exists_head rest
  | more h _ =>
    rw [List.append_assoc]
    exact h.exists_head _

theorem WritesKey.exists_head {us : List Nat} {t : Text} (h : WritesKey us t) (rest : Text) :
    ∃ cs, (t ++ rest).dropWhile isSpace = '"' :: cs := by
  cases h with
  | mk hbefore _ _ =>
    rw [List.append_assoc, dropWhile_spaces hbefore]
    exact ⟨_, rfl⟩

theorem WritesMembers.exists_head {members : List (List Nat × Json)} {t : Text} (h : WritesMembers members t)
    (rest : Text) : ∃ cs, (t ++ rest).dropWhile isSpace = '"' :: cs := by
  cases h with
  | last hk => rw [List.append_assoc]; exact hk.exists_head _
  | more hk => rw [List.append_assoc]; exact hk.exists_head _

/-! ### One step of the reader -/

theorem readValue?_dropWhile (limit : Nat) (t : Text) :
    readValue? limit (t.dropWhile isSpace) = readValue? limit t := by
  cases limit with
  | zero => rfl
  | succ limit => rw [readValue?, readValue?, dropWhile_dropWhile]

theorem readItems?_dropWhile (limit : Nat) (t : Text) :
    readItems? limit (t.dropWhile isSpace) = readItems? limit t := by
  cases limit with
  | zero => rfl
  | succ limit => rw [readItems?, readItems?, readValue?_dropWhile]

theorem readMembers?_dropWhile (limit : Nat) (t : Text) :
    readMembers? limit (t.dropWhile isSpace) = readMembers? limit t := by
  cases limit with
  | zero => rfl
  | succ limit => rw [readMembers?, readMembers?, dropWhile_dropWhile]

theorem readValue?_spaces (limit : Nat) {s : Text} (hs : Spaces s) (t : Text) :
    readValue? limit (s ++ t) = readValue? limit t := by
  rw [← readValue?_dropWhile, dropWhile_spaces hs, readValue?_dropWhile]

theorem readValue?_word (limit : Nat) {c : Char} {cs : Text} (hspace : isSpace c = false)
    (hc : c ≠ '"' ∧ c ≠ '[' ∧ c ≠ '\x7b') :
    readValue? (limit + 1) (c :: cs) = (readWord? (c :: cs)).or (readNumber? (c :: cs)) := by
  obtain ⟨hquote, hlist, hobject⟩ := hc
  rw [readValue?, List.dropWhile_cons_of_neg (by rw [hspace]; decide)]
  split
  · next heq => cases heq; exact absurd rfl hquote
  · next heq => cases heq; exact absurd rfl hlist
  · next heq => cases heq; exact absurd rfl hobject
  · rfl

theorem readValue?_string (limit : Nat) (rest : Text) :
    readValue? (limit + 1) ('"' :: rest) = (readString? rest).map fun (us, rest) => (.string us, rest) := by
  rw [readValue?]
  rfl

theorem readValue?_list (limit : Nat) (rest : Text) :
    readValue? (limit + 1) ('[' :: rest) = match rest.dropWhile isSpace with
      | ']' :: rest => some (.array [], rest)
      | rest => (readItems? limit rest).map fun (items, rest) => (.array items, rest) := by
  rw [readValue?]
  rfl

theorem readValue?_members (limit : Nat) (rest : Text) :
    readValue? (limit + 1) ('\x7b' :: rest) = match rest.dropWhile isSpace with
      | '\x7d' :: rest => some (.object [], rest)
      | rest => (readMembers? limit rest).map fun (members, rest) => (.object members, rest) := by
  rw [readValue?]
  rfl

theorem readValue?_array (limit : Nat) {rest : Text} (h : ∃ c cs, rest.dropWhile isSpace = c :: cs ∧ c ≠ ']') :
    readValue? (limit + 1) ('[' :: rest) =
      (readItems? limit rest).map fun (items, rest) => (.array items, rest) := by
  obtain ⟨c, cs, hdrop, hc⟩ := h
  rw [readValue?_list, ← readItems?_dropWhile limit rest, hdrop]
  split
  · next heq => cases heq; exact absurd rfl hc
  · rfl

theorem readValue?_object (limit : Nat) {rest : Text} (h : ∃ cs, rest.dropWhile isSpace = '"' :: cs) :
    readValue? (limit + 1) ('\x7b' :: rest) =
      (readMembers? limit rest).map fun (members, rest) => (.object members, rest) := by
  obtain ⟨cs, hdrop⟩ := h
  rw [readValue?_members, ← readMembers?_dropWhile limit rest, hdrop]
  rfl

/-- What reading members goes on with after a key and the colon. -/
def readMember? (limit : Nat) (key : List Nat) (t : Text) : Option (List (List Nat × Json) × Text) := do
  let (value, rest) ← readValue? limit t
  match rest.dropWhile isSpace with
  | ',' :: rest =>
    let (members, rest) ← readMembers? limit rest
    return ((key, value) :: members, rest)
  | '\x7d' :: rest => return ([(key, value)], rest)
  | _ => none

theorem readMembers?_key (limit : Nat) {key : List Nat} {k : Text} (hk : WritesKey key k) (rest : Text) :
    readMembers? (limit + 1) (k ++ ':' :: rest) = readMember? limit key rest := by
  cases hk with
  | @mk before after t us hbefore h hafter =>
    have hstring : readString? (t ++ '"' :: (after ++ ':' :: rest)) = some (key, after ++ ':' :: rest) :=
      readString?_append h _
    have hcolon : (after ++ ':' :: rest).dropWhile isSpace = ':' :: rest := by
      rw [dropWhile_spaces hafter]
      rfl
    have htext : before ++ '"' :: (t ++ '"' :: after) ++ ':' :: rest =
        before ++ '"' :: (t ++ '"' :: (after ++ ':' :: rest)) := by simp
    rw [readMembers?, htext, dropWhile_spaces hbefore, List.dropWhile_cons_of_neg (by decide)]
    show ((readString? _).bind fun _ => _) = _
    rw [hstring, Option.bind_some]
    dsimp only
    rw [hcolon]
    rfl

theorem readWord?_of_number {c : Char} (hc : c.isDigit = true ∨ c = '-') (cs : Text) :
    readWord? (c :: cs) = none := by
  have hother {d : Char} (hd : d.isDigit = false ∧ d ≠ '-') (s : Text) : (d :: s).isPrefixOf? (c :: cs) = none := by
    refine if_neg fun heq => ?_
    obtain rfl := eq_of_beq heq
    rcases hc with hc | rfl
    · rw [hd.1] at hc
      cases hc
    · exact hd.2 rfl
  have hnull : "null".toList.isPrefixOf? (c :: cs) = none := hother (by decide) _
  have htrue : "true".toList.isPrefixOf? (c :: cs) = none := hother (by decide) _
  have hfalse : "false".toList.isPrefixOf? (c :: cs) = none := hother (by decide) _
  rw [readWord?, hnull, htrue, hfalse]

/-! ### What is written is read -/

mutual

/-- **A value is read after white space**, up to what no number goes on with.
Two steps a character are enough: brackets start a value, and the first item in
them another one. -/
theorem Writes.read {j : Json} {t : Text} : Writes j t → ∀ (limit : Nat) (rest : Text) {s : Text}, Spaces s →
    EndsNumber rest → 2 * t.length ≤ limit → readValue? limit (s ++ (t ++ rest)) = some (j, rest)
  | .null, limit + 1, _, _, hs, _, _ => (readValue?_spaces _ hs _).trans (readValue?_word limit rfl (by decide))
  | .yes, limit + 1, _, _, hs, _, _ => (readValue?_spaces _ hs _).trans (readValue?_word limit rfl (by decide))
  | .no, limit + 1, _, _, hs, _, _ => (readValue?_spaces _ hs _).trans (readValue?_word limit rfl (by decide))
  | .number h, limit, rest, s, hs, hrest, hlimit => by
    obtain ⟨c, cs, rfl, hc⟩ := h.exists_head
    have hread := readNumber?_append h hrest
    cases limit with
    | zero => simp at hlimit
    | succ limit =>
      have hkind : isSpace c = false ∧ c ≠ '"' ∧ c ≠ '[' ∧ c ≠ '\x7b' := by
        rcases hc with hc | rfl
        · refine ⟨isSpace_of_isDigit hc, ?_, ?_, ?_⟩ <;> (rintro rfl; cases hc)
        · decide
      rw [readValue?_spaces _ hs, List.cons_append, readValue?_word limit hkind.1 hkind.2, readWord?_of_number hc]
      exact hread
  | .string h, limit + 1, rest, s, hs, hrest, hlimit => by
    rw [List.cons_append, readValue?_spaces _ hs, readValue?_string, List.append_assoc, List.singleton_append,
      readString?_append h]
    rfl
  | .emptyArray hspaces, limit + 1, rest, s, hs, hrest, hlimit => by
    rw [List.cons_append, readValue?_spaces _ hs, readValue?_list, List.append_assoc, dropWhile_spaces hspaces]
    rfl
  | .array h, limit + 1, rest, s, hs, hrest, hlimit => by
    have hread := h.read limit rest (by simp at hlimit; omega)
    rw [List.cons_append, readValue?_spaces _ hs, List.append_assoc, readValue?_array limit (h.exists_head _),
      List.singleton_append, hread]
    rfl
  | .emptyObject hspaces, limit + 1, rest, s, hs, hrest, hlimit => by
    rw [List.cons_append, readValue?_spaces _ hs, readValue?_members, List.append_assoc, dropWhile_spaces hspaces]
    rfl
  | .object h, limit + 1, rest, s, hs, hrest, hlimit => by
    have hread := h.read limit rest (by simp at hlimit; omega)
    rw [List.cons_append, readValue?_spaces _ hs, List.append_assoc, readValue?_object limit (h.exists_head _),
      List.singleton_append, hread]
    rfl

theorem Document.read {j : Json} {t : Text} : Document j t → ∀ (limit : Nat) (rest : Text),
    EndsNumber rest → 2 * t.length ≤ limit →
      ∃ after, Spaces after ∧ readValue? limit (t ++ rest) = some (j, after ++ rest)
  | @Document.mk _ before t after hbefore h hafter, limit, rest, hrest, hlimit => by
    refine ⟨after, hafter, ?_⟩
    rw [List.append_assoc, List.append_assoc]
    exact h.read limit (after ++ rest) hbefore (hrest.spaces hafter) (by simp at hlimit; omega)

theorem WritesItems.read {items : List Json} {t : Text} : WritesItems items t → ∀ (limit : Nat) (rest : Text),
    2 * t.length + 1 ≤ limit → readItems? limit (t ++ ']' :: rest) = some (items, rest)
  | .last h, limit + 1, rest, hlimit => by
    obtain ⟨after, hafter, hread⟩ := h.read limit (']' :: rest) (.of_cons rfl) (by omega)
    rw [readItems?, hread]
    dsimp only [Option.bind_eq_bind, Option.bind_some]
    rw [dropWhile_spaces hafter]
    rfl
  | @WritesItems.more _ items t ts h hs, limit + 1, rest, hlimit => by
    rw [List.length_append, List.length_cons] at hlimit
    obtain ⟨after, hafter, hread⟩ := h.read limit (',' :: (ts ++ ']' :: rest)) (.of_cons rfl) (by omega)
    have hmore := hs.read limit rest (by omega)
    rw [readItems?, List.append_assoc, List.cons_append, hread]
    dsimp only [Option.bind_eq_bind, Option.bind_some]
    rw [dropWhile_spaces hafter, List.dropWhile_cons_of_neg (by decide)]
    exact congrArg (Option.bind · _) hmore

theorem WritesMembers.read {members : List (List Nat × Json)} {t : Text} : WritesMembers members t →
    ∀ (limit : Nat) (rest : Text), 2 * t.length + 1 ≤ limit →
      readMembers? limit (t ++ '\x7d' :: rest) = some (members, rest)
  | .last hk h, limit + 1, rest, hlimit => by
    rw [List.length_append, List.length_cons] at hlimit
    obtain ⟨after, hafter, hread⟩ := h.read limit ('\x7d' :: rest) (.of_cons rfl) (by omega)
    rw [List.append_assoc, List.cons_append, readMembers?_key limit hk, readMember?, hread]
    dsimp only [Option.bind_eq_bind, Option.bind_some]
    rw [dropWhile_spaces hafter]
    rfl
  | @WritesMembers.more _ _ members _ _ ts hk h hs, limit + 1, rest, hlimit => by
    rw [List.length_append, List.length_cons, List.length_append, List.length_cons] at hlimit
    obtain ⟨after, hafter, hread⟩ := h.read limit (',' :: (ts ++ '\x7d' :: rest)) (.of_cons rfl) (by omega)
    have hmore := hs.read limit rest (by omega)
    rw [List.append_assoc, List.cons_append, List.append_assoc, List.cons_append, readMembers?_key limit hk,
      readMember?, hread]
    dsimp only [Option.bind_eq_bind, Option.bind_some]
    rw [dropWhile_spaces hafter, List.dropWhile_cons_of_neg (by decide)]
    exact congrArg (Option.bind · _) hmore

end

/-! ### What is read is written -/

theorem exists_writes_of_readWord {t rest : Text} {j : Json} (h : readWord? t = some (j, rest)) :
    ∃ s, t = s ++ rest ∧ Writes j s := by
  unfold readWord? at h
  split at h
  · next heq =>
    cases h
    exact ⟨_, Text.eq_of_isPrefixOf heq, .null⟩
  · next heq =>
    cases h
    exact ⟨_, Text.eq_of_isPrefixOf heq, .yes⟩
  · next heq =>
    cases h
    exact ⟨_, Text.eq_of_isPrefixOf heq, .no⟩
  · cases h

theorem exists_document {j : Json} {t rest : Text}
    (h : ∃ before s, t = before ++ (s ++ rest) ∧ Spaces before ∧ Writes j s) :
    ∃ s, t = s ++ rest.dropWhile isSpace ∧ Document j s := by
  obtain ⟨before, s, rfl, hbefore, hw⟩ := h
  obtain ⟨after, hafter, hrest⟩ := exists_spaces rest
  refine ⟨before ++ (s ++ after), ?_, .mk hbefore hw hafter⟩
  rw [List.append_assoc, List.append_assoc, ← hrest]

mutual

theorem exists_writes_of_readValue : ∀ {limit : Nat} {t rest : Text} {j : Json},
    readValue? limit t = some (j, rest) → ∃ before s, t = before ++ (s ++ rest) ∧ Spaces before ∧ Writes j s
  | limit + 1, t, rest, j, h => by
    obtain ⟨before, hbefore, ht⟩ := exists_spaces t
    suffices ∃ s, t.dropWhile isSpace = s ++ rest ∧ Writes j s by
      obtain ⟨s, hs, hw⟩ := this
      exact ⟨before, s, by rw [← hs, ← ht], hbefore, hw⟩
    rw [readValue?] at h
    split at h
    · next inside heq =>
      obtain ⟨⟨us, rest⟩, hus, h⟩ := Option.map_eq_some_iff.1 h
      cases h
      obtain ⟨s, rfl, hs⟩ := exists_spells hus
      exact ⟨_, by rw [heq]; simp, .string hs⟩
    · next inside heq =>
      split at h
      · next hclose =>
        cases h
        obtain ⟨s, hs, hinside⟩ := exists_spaces inside
        exact ⟨_, by rw [heq, hinside, hclose]; simp, .emptyArray hs⟩
      · obtain ⟨⟨items, rest⟩, hitems, h⟩ := Option.map_eq_some_iff.1 h
        cases h
        rw [readItems?_dropWhile] at hitems
        obtain ⟨s, rfl, hs⟩ := exists_writes_of_readItems hitems
        exact ⟨_, by rw [heq]; simp, .array hs⟩
    · next inside heq =>
      split at h
      · next hclose =>
        cases h
        obtain ⟨s, hs, hinside⟩ := exists_spaces inside
        exact ⟨_, by rw [heq, hinside, hclose]; simp, .emptyObject hs⟩
      · obtain ⟨⟨members, rest⟩, hmembers, h⟩ := Option.map_eq_some_iff.1 h
        cases h
        rw [readMembers?_dropWhile] at hmembers
        obtain ⟨s, rfl, hs⟩ := exists_writes_of_readMembers hmembers
        exact ⟨_, by rw [heq]; simp, .object hs⟩
    · rw [Option.or_eq_some_iff] at h
      rcases h with h | ⟨-, h⟩
      · exact exists_writes_of_readWord h
      · obtain ⟨s, hs, hnumber, rfl⟩ := eq_of_readNumber h
        exact ⟨s, hs, .number hnumber⟩

theorem exists_writes_of_readItems : ∀ {limit : Nat} {t rest : Text} {items : List Json},
    readItems? limit t = some (items, rest) → ∃ s, t = s ++ ']' :: rest ∧ WritesItems items s
  | limit + 1, t, rest, items, h => by
    rw [readItems?, Option.bind_eq_bind, Option.bind_eq_some_iff] at h
    obtain ⟨⟨item, left⟩, hitem, h⟩ := h
    obtain ⟨s, rfl, hs⟩ := exists_document (exists_writes_of_readValue hitem)
    dsimp only at h
    split at h
    · next heq =>
      obtain ⟨⟨items, rest⟩, hitems, h⟩ := Option.bind_eq_some_iff.1 h
      cases h
      obtain ⟨ss, rfl, hss⟩ := exists_writes_of_readItems hitems
      exact ⟨_, by rw [heq]; simp, .more hs hss⟩
    · next heq =>
      cases h
      exact ⟨s, by rw [heq], .last hs⟩
    · cases h

theorem exists_writes_of_readMembers : ∀ {limit : Nat} {t rest : Text} {members : List (List Nat × Json)},
    readMembers? limit t = some (members, rest) → ∃ s, t = s ++ '\x7d' :: rest ∧ WritesMembers members s
  | limit + 1, t, rest, members, h => by
    obtain ⟨before, hbefore, ht⟩ := exists_spaces t
    rw [readMembers?] at h
    split at h
    · next inside heq =>
      rw [Option.bind_eq_bind, Option.bind_eq_some_iff] at h
      obtain ⟨⟨us, left⟩, hus, h⟩ := h
      obtain ⟨key, rfl, hkey⟩ := exists_spells hus
      obtain ⟨after, hafter, hleft⟩ := exists_spaces left
      have hk := WritesKey.mk hbefore hkey hafter
      dsimp only at h
      split at h
      · next hcolon =>
        rw [Option.bind_eq_bind, Option.bind_eq_some_iff] at h
        obtain ⟨⟨value, left⟩, hvalue, h⟩ := h
        obtain ⟨v, rfl, hv⟩ := exists_document (exists_writes_of_readValue hvalue)
        have htext := ht.trans (by rw [heq, hleft, hcolon])
        dsimp only at h
        split at h
        · next hmore =>
          obtain ⟨⟨members, rest⟩, hmembers, h⟩ := Option.bind_eq_some_iff.1 h
          cases h
          obtain ⟨ss, rfl, hss⟩ := exists_writes_of_readMembers hmembers
          exact ⟨_, by rw [htext, hmore]; simp, .more hk hv hss⟩
        · next hend =>
          cases h
          exact ⟨_, by rw [htext, hend]; simp, .last hk hv⟩
        · cases h
      · cases h
    · cases h

end

/-- **The reader accepts the documents of the grammar, and no other text**, and
yields their values. -/
theorem ofText?_eq_some_iff {t : Text} {j : Json} : ofText? t = some j ↔ Document j t := by
  constructor
  · intro h
    rw [ofText?, Option.bind_eq_bind, Option.bind_eq_some_iff] at h
    obtain ⟨⟨value, rest⟩, hvalue, h⟩ := h
    obtain ⟨before, s, rfl, hbefore, hw⟩ := exists_writes_of_readValue hvalue
    dsimp only at h
    split at h
    · next hall =>
      cases h
      exact .mk hbefore hw (List.all_eq_true.1 hall)
    · cases h
  · intro h
    obtain ⟨after, hafter, hread⟩ := h.read (2 * t.length + 2) [] (by intro c hc; cases hc) (by omega)
    rw [List.append_nil, List.append_nil] at hread
    rw [ofText?, hread]
    exact if_pos (List.all_eq_true.2 hafter)

end Json
end Offside
