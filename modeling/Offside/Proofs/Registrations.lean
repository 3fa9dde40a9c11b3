/-
# A registry is determined by its registrations

Registrations go by the tags of their languages, and a tag is its own tag
(`tag_tag`). So a pair of languages finds the converter that was last
registered for a pair with the same tags; the pairs are listed in the order in
which they were first registered; and a pair of the list finds its own
converter.

Key definitions: `Registration`, `Registry.registerAll`, `Registry.Keeps`.
Key theorems: `tag_tag`, `Registry.keeps_of_registerAll`, `Registry.keeps_registrations`.
-/
import Offside.Proofs.Lowercase
import Offside.Registry

namespace Offside

theorem tag_tag (language : Text) : tag (tag language) = tag language := by
  have htrimmed : Text.IsTrimmed (tag language) := Text.isTrimmed_lowercase (Text.isTrimmed_trim language)
  rw [tag, Text.trim_eq_self htrimmed, tag, Text.lowercase_lowercase]

example : tag " ΟΔΟΣ\t" = "οδος" := by decide +kernel

/-- A registration of a converter for a pair of languages. -/
structure Registration where
  source : Text
  target : Text
  convert : Converter

/-- The tags of the languages that are registered. -/
def Registration.pair (x : Registration) : Text × Text := (tag x.source, tag x.target)

/-- The registration of the one conversion that is built in. -/
def Registration.builtIn : Registration := ⟨"python", "java", convertProgram⟩

namespace Registry

/-- The registry after a row of registrations. -/
def registerAll (r : Registry) (xs : List Registration) : Registry :=
  xs.foldl (fun r x => r.register x.source x.target x.convert) r

/-- A registry answers as the registrations `xs` tell it to. -/
structure Keeps (r : Registry) (xs : List Registration) : Prop where
  /-- Languages find the last converter that was registered under their tags. -/
  get? : ∀ source target, r.get? source target =
    ((xs.filter (·.pair = (tag source, tag target))).getLast?).map Registration.convert
  /-- The pairs are the distinct ones that were registered, in the order of
  their first registrations. -/
  pairs : r.pairs = (xs.map Registration.pair).eraseDups
  /-- A pair of the list finds the last converter that was registered for it. -/
  own : ∀ p ∈ r.pairs, ∃ x, (xs.filter (·.pair = p)).getLast? = some x ∧ r.get? p.1 p.2 = some x.convert
  /-- To register a pair again leaves the list as it is, replaces the pair's
  converter and no other. -/
  again : ∀ x : Registration, x.pair ∈ r.pairs →
    (r.register x.source x.target x.convert).pairs = r.pairs ∧
      ∀ source target, (r.register x.source x.target x.convert).get? source target =
        if (tag source, tag target) = x.pair then some x.convert else r.get? source target
  /-- Texts are converted by what the languages find. -/
  found : ∀ source target f, r.get? source target = some f → ∀ text, r.convert source target text = f text
  /-- Where nothing is found every text is converted to the same code. -/
  missing : ∀ source target, r.get? source target = none →
    ∀ text, (r.convert source target text).value = some (.code unsupported)

theorem registerAll_nil (xs : List Registration) :
    registerAll [] xs = OrderedMap.stored Registration.pair Registration.convert xs := rfl

theorem registerAll_standard (xs : List Registration) :
    registerAll standard xs = registerAll [] (.builtIn :: xs) := rfl

theorem get?_of_mem_pairs {xs : List Registration} {p : Text × Text} (h : p ∈ (registerAll [] xs).pairs) :
    ∃ x, (xs.filter (·.pair = p)).getLast? = some x ∧ (registerAll [] xs).get? p.1 p.2 = some x.convert := by
  rw [pairs, registerAll_nil, OrderedMap.keys_stored, List.mem_eraseDups, List.mem_map] at h
  obtain ⟨y, hy, rfl⟩ := h
  -- its tags are their own tags
  have hself : (tag y.pair.1, tag y.pair.2) = y.pair := by
    rw [Registration.pair, tag_tag, tag_tag]
  have hne : xs.filter (·.pair = y.pair) ≠ [] :=
    List.ne_nil_of_mem (List.mem_filter.2 ⟨hy, decide_eq_true rfl⟩)
  refine ⟨_, List.getLast?_eq_some_getLast hne, ?_⟩
  rw [get?, registerAll_nil, hself, OrderedMap.lookup_stored, List.getLast?_eq_some_getLast hne]
  rfl

theorem keeps_of_registerAll (xs : List Registration) : Keeps (registerAll [] xs) xs where
  get? source target := OrderedMap.lookup_stored _ _ _ xs
  pairs := OrderedMap.keys_stored _ _ xs
  own _ := get?_of_mem_pairs
  again x hx := by
    refine ⟨?_, fun source target => OrderedMap.lookup_insert _ _ _ _⟩
    exact (OrderedMap.keys_insert _ _ _).trans (if_pos hx)
  found source target f hf text := by rw [convert, hf]
  missing source target hnone text := by
    rw [convert, hnone]
    rfl

end Registry
end Offside
