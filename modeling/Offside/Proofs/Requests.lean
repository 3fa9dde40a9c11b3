/-
# Requests in documents

A request is what a document asks for, as an object in which each of its three
keys comes once, among others and in any order, or as an array of the three
texts (`Request.Asks`). The texts may be written in any way that spells them.
So a request that is written is read back (`Request.ofText?_write`), and an
answer is a document with the text that it answers with
(`Request.ofText?_response`).

Key definitions: `Request.Asks`, `Request.writeObject`, `Request.write`.
Key theorems: `Request.ofJson?_eq_some_iff`, `Request.ofText?_eq_some_iff`,
`Request.ofText?_writeObject`, `Request.ofText?_write`,
`Request.ofText?_response`.
-/
import Mathlib.Data.List.Forall2
import Mathlib.Data.List.Nodup
import Offside.Proofs.Documents
import Offside.Request

namespace Offside
namespace Request

open Json

/-! ### What a value asks for -/

/-- The value is a string that stands for a text. -/
inductive IsText : Json → Text → Prop where
  | mk {us : List Nat} {t : Text} (h : textOf? us = some t) : IsText (.string us) t

/-- One member and no other has a key, and its value is a text. -/
def Only (ms : List (Text × Json)) (key t : Text) : Prop :=
  ∃ before value after, ms = before ++ (key, value) :: after ∧ IsText value t ∧
    key ∉ before.map Prod.fst ∧ key ∉ after.map Prod.fst

/-- The members of an object with the texts that their keys stand for. -/
def Keyed (members : List (List Nat × Json)) (ms : List (Text × Json)) : Prop :=
  List.Forall₂ (fun member m => textOf? member.1 = some m.1 ∧ member.2 = m.2) members ms

/-- What a value asks for. -/
inductive Asks : Json → Request → Prop where
  | array {first second third : Json} {q : Request} (hcode : IsText first q.code)
    (hsource : IsText second q.source) (htarget : IsText third q.target) : Asks (.array [first, second, third]) q
  | object {members : List (List Nat × Json)} {ms : List (Text × Json)} {q : Request} (hkeys : Keyed members ms)
    (hcode : Only ms "code" q.code) (hsource : Only ms "sourceLanguage" q.source)
    (htarget : Only ms "targetLanguage" q.target) : Asks (.object members) q

theorem text?_eq_some_iff {j : Json} {t : Text} : text? j = some t ↔ IsText j t := by
  constructor
  · intro h
    cases j with
    | string us => exact .mk h
    | _ => cases h
  · rintro ⟨h⟩
    exact h

theorem member?_eq_some_iff {ms : List (Text × Json)} {key t : Text} :
    member? ms key = some t ↔ Only ms key t := by
  have hkeys (l : List (Text × Json)) : (∀ m ∈ l, ¬decide (m.1 = key) = true) ↔ key ∉ l.map Prod.fst := by
    simp only [List.mem_map, decide_eq_true_eq, not_exists, not_and]
  constructor
  · intro h
    unfold member? at h
    split at h
    · next found value hfilter =>
      obtain ⟨before, after, rfl, hbefore, hfound, hafter⟩ := List.filter_eq_cons_iff.1 hfilter
      obtain rfl : found = key := of_decide_eq_true hfound
      exact ⟨before, value, after, rfl, text?_eq_some_iff.1 h, (hkeys _).1 hbefore,
        (hkeys _).1 (List.filter_eq_nil_iff.1 hafter)⟩
    · cases h
  · rintro ⟨before, value, after, rfl, htext, hbefore, hafter⟩
    have hfilter : ((before ++ (key, value) :: after).filter fun m => m.1 = key) = [(key, value)] :=
      List.filter_eq_cons_iff.2 ⟨before, after, rfl, (hkeys _).2 hbefore, decide_eq_true rfl,
        List.filter_eq_nil_iff.2 ((hkeys _).2 hafter)⟩
    rw [member?, hfilter]
    exact text?_eq_some_iff.2 htext

theorem mapM_eq_some_iff : ∀ {members : List (List Nat × Json)} {ms : List (Text × Json)},
    (members.mapM fun (key, value) => do return (← textOf? key, value) : Option (List (Text × Json))) = some ms ↔
      Keyed members ms
  | [], ms => by
    rw [List.mapM_nil, Keyed, List.forall₂_nil_left_iff]
    exact ⟨fun h => (Option.some.inj h).symm, fun h => congrArg some h.symm⟩
  | (key, value) :: members, ms => by
    rw [List.mapM_cons, Option.bind_eq_bind, Option.bind_eq_some_iff, Keyed, List.forall₂_cons_left_iff]
    constructor
    · rintro ⟨m, hm, h⟩
      obtain ⟨k, hk, hm⟩ := Option.bind_eq_some_iff.1 hm
      obtain ⟨more, hmore, h⟩ := Option.bind_eq_some_iff.1 h
      cases hm
      cases h
      exact ⟨_, _, ⟨hk, rfl⟩, mapM_eq_some_iff.1 hmore, rfl⟩
    · rintro ⟨⟨k, v⟩, more, ⟨hk, rfl⟩, hmore, rfl⟩
      refine ⟨(k, value), Option.bind_eq_some_iff.2 ⟨k, hk, rfl⟩, ?_⟩
      exact Option.bind_eq_some_iff.2 ⟨more, mapM_eq_some_iff.2 hmore, rfl⟩

/-- **The request in a value is what the value asks for.** -/
theorem ofJson?_eq_some_iff {j : Json} {q : Request} : ofJson? j = some q ↔ Asks j q := by
  constructor
  · intro h
    unfold ofJson? at h
    split at h
    · simp only [Option.bind_eq_bind, Option.bind_eq_some_iff, text?_eq_some_iff] at h
      obtain ⟨code, hcode, source, hsource, target, htarget, h⟩ := h
      cases h
      exact .array hcode hsource htarget
    · simp only [Option.bind_eq_bind, Option.bind_eq_some_iff, member?_eq_some_iff] at h
      obtain ⟨ms, hkeys, code, hcode, source, hsource, target, htarget, h⟩ := h
      cases h
      exact .object (mapM_eq_some_iff.1 hkeys) hcode hsource htarget
    · cases h
  · intro h
    cases h with
    | array hcode hsource htarget =>
      rw [ofJson?, text?_eq_some_iff.2 hcode, text?_eq_some_iff.2 hsource, text?_eq_some_iff.2 htarget]
      rfl
    | object hkeys hcode hsource htarget =>
      rw [ofJson?, mapM_eq_some_iff.2 hkeys]
      dsimp only [Option.bind_eq_bind, Option.bind_some]
      rw [member?_eq_some_iff.2 hcode, member?_eq_some_iff.2 hsource, member?_eq_some_iff.2 htarget]
      rfl

/-- **A document is a request if its value asks for one**, and for that one. -/
theorem ofText?_eq_some_iff {t : Text} {q : Request} : ofText? t = some q ↔ ∃ j, Document j t ∧ Asks j q := by
  rw [ofText?, Option.bind_eq_bind, Option.bind_eq_some_iff]
  simp only [Json.ofText?_eq_some_iff, ofJson?_eq_some_iff]

/-! ### Written requests -/

/-- The members of an object, all of them texts, each on its own line. -/
def writeMembers : List (Text × Text) → Text
  | [] => []
  | [(key, value)] => "\n  " ++ quote key ++ ": " ++ quote value ++ "\n"
  | (key, value) :: m :: ms => "\n  " ++ quote key ++ ": " ++ quote value ++ "," ++ writeMembers (m :: ms)

/-- The members of an object as they are read. -/
def asRead (ms : List (Text × Text)) : List (List Nat × Json) :=
  ms.map fun (key, value) => (units key, .string (units value))

theorem writes_quote (t : Text) : Writes (.string (units t)) (quote t) := .string (spells_units t)

theorem writesKey_quote {s : Text} (hs : Spaces s) (key : Text) : WritesKey (units key) (s ++ quote key) :=
  .mk hs (spells_units key) fun _ h => absurd h List.not_mem_nil

theorem writes_members (key value : Text) : ∀ ms : List (Text × Text),
    WritesMembers (asRead ((key, value) :: ms)) (writeMembers ((key, value) :: ms))
  | [] => by
    have hk : WritesKey (units key) ("\n  " ++ quote key) := writesKey_quote (by decide) key
    have hv : Document (.string (units value)) (" " ++ (quote value ++ "\n")) :=
      .mk (by decide) (writes_quote value) (by decide)
    have hwritten : writeMembers [(key, value)] = "\n  " ++ quote key ++ ':' :: (" " ++ (quote value ++ "\n")) := by
      simp [writeMembers]
    rw [hwritten]
    exact .last hk hv
  | m :: ms => by
    have hk : WritesKey (units key) ("\n  " ++ quote key) := writesKey_quote (by decide) key
    have hv : Document (.string (units value)) (" " ++ (quote value ++ "")) :=
      .mk (by decide) (writes_quote value) (by decide)
    have hmore := writes_members m.1 m.2 ms
    have hwritten : writeMembers ((key, value) :: m :: ms) =
        "\n  " ++ quote key ++ ':' :: (" " ++ (quote value ++ "") ++ ',' :: writeMembers (m :: ms)) := by
      simp [writeMembers]
    rw [hwritten]
    exact .more hk hv hmore

/-- An object of texts, of which there is at least one. -/
def writeObject (ms : List (Text × Text)) : Text := "\x7b" ++ writeMembers ms ++ "\x7d\n"

theorem document_writeObject {ms : List (Text × Text)} (hne : ms ≠ []) :
    Document (.object (asRead ms)) (writeObject ms) := by
  obtain ⟨⟨key, value⟩, ms, rfl⟩ := List.exists_cons_of_ne_nil hne
  have hwritten : writeObject ((key, value) :: ms) =
      [] ++ ('\x7b' :: (writeMembers ((key, value) :: ms) ++ ['\x7d']) ++ ['\n']) := by
    simp [writeObject]
  rw [hwritten]
  exact .mk (by decide) (.object (writes_members key value ms)) (by decide)

theorem keyed_asRead : ∀ ms : List (Text × Text), Keyed (asRead ms) (ms.map fun m => (m.1, .string (units m.2)))
  | [] => .nil
  | m :: ms => .cons ⟨textOf?_units m.1, rfl⟩ (keyed_asRead ms)

theorem only_of_mem {ms : List (Text × Text)} (hkeys : (ms.map Prod.fst).Nodup) {key t : Text} (h : (key, t) ∈ ms) :
    Only (ms.map fun m => (m.1, .string (units m.2))) key t := by
  obtain ⟨before, after, rfl⟩ := List.append_of_mem h
  rw [List.map_append, List.map_cons, List.nodup_middle, List.nodup_cons, List.mem_append, not_or] at hkeys
  refine ⟨_, _, _, List.map_append, .mk (textOf?_units t), ?_, ?_⟩
  · rw [List.map_map]
    exact hkeys.1.1
  · rw [List.map_map]
    exact hkeys.1.2

/-- **An object of texts with different keys is read as a request** if it has
the three members, in any order and among others. -/
theorem ofText?_writeObject {ms : List (Text × Text)} {q : Request} (hkeys : (ms.map Prod.fst).Nodup)
    (hcode : ("code".toList, q.code) ∈ ms) (hsource : ("sourceLanguage".toList, q.source) ∈ ms)
    (htarget : ("targetLanguage".toList, q.target) ∈ ms) : ofText? (writeObject ms) = some q :=
  ofText?_eq_some_iff.2 ⟨_, document_writeObject (List.ne_nil_of_mem hcode), .object (keyed_asRead ms)
    (only_of_mem hkeys hcode) (only_of_mem hkeys hsource) (only_of_mem hkeys htarget)⟩

/-- A request as an object. -/
def write (q : Request) : Text :=
  writeObject [("code", q.code), ("sourceLanguage", q.source), ("targetLanguage", q.target)]

/-- **A request that is written is read back.** -/
theorem ofText?_write (q : Request) : ofText? q.write = some q := by
  have hkeys : ["code".toList, "sourceLanguage", "targetLanguage"].Nodup := by decide
  exact ofText?_writeObject hkeys (by simp) (by simp) (by simp)

/-- **An answer is a document with the text that it answers with**, and nothing
else. -/
theorem ofText?_response (output : Text) :
    Json.ofText? (response output) = some (.object [(units "output", .string (units output))]) := by
  have hopening : "\x7b\n  \"output\": ".toList = "\x7b" ++ ("\n  " ++ quote "output" ++ ": ") := by decide
  have hclosing : "\n\x7d\n".toList = "\n" ++ "\x7d\n".toList := by decide
  have hwritten : response output = writeObject [("output", output)] := by
    unfold response writeObject writeMembers
    rw [hopening, hclosing]
    simp only [List.append_assoc]
  have hdocument := document_writeObject (List.cons_ne_nil ("output".toList, output) [])
  rw [hwritten]
  exact Json.ofText?_eq_some_iff.2 hdocument

end Request
end Offside
