/-
# Where functions are defined

Sorting gives every line of a program a role: it defines a function, it is
under the definition that is open, or it belongs to the entry point. Only
indentations decide, so a definition may stand under a line of the entry point.
It is taken out of the block it stands in, and nothing says so. Where a source
text is converted to code, this is the only way for a definition to be nested:
a definition under another one is reported, unless it goes with a function
that a later one replaces.

Key definitions: `Line.role`, `roles`, `Under`.
Key theorems: `sortLines_eq_roles`, `under_entry_of_header`,
`definition_of_convertProgram`.
-/
import Offside.Proofs.Preservation

namespace Offside

/-- What a line is to its program. -/
inductive Role where
  /-- A line that defines a function. -/
  | header
  /-- A line under the definition that is open. -/
  | body
  /-- A line of the entry point. -/
  | entry
  deriving DecidableEq, Repr

namespace Line

/-- The role of a line while the definition at the indentation `owner`, if
there is one, is open. -/
def role (owner : Option Nat) (l : Line) : Role :=
  if owner.any (· < l.indent) then .body else if l.signature?.isSome then .header else .entry

/-- The indentation of the definition that is open after a line. -/
def opens (owner : Option Nat) (l : Line) : Option Nat :=
  match l.role owner with
  | .header => some l.indent
  | .body => owner
  | .entry => none

end Line

/-- The lines of a program with their roles. -/
def roles (owner : Option Nat) : List Line → List (Role × Line)
  | [] => []
  | l :: ls => (l.role owner, l) :: roles (l.opens owner) ls

/-- The lines of one role. -/
def ofRole (r : Role) (es : List (Role × Line)) : List Line :=
  (es.filter fun e => e.1 = r).map Prod.snd

/-! ### Sorting by roles -/

section Sorting

variable {owner : Option Nat} {l : Line}

theorem sortLines_cons_body (h : l.role owner = .body) (ls : List Line) :
    sortLines owner (l :: ls) = (l :: (sortLines owner ls).1, (sortLines owner ls).2) := by
  unfold Line.role at h
  split at h
  · next hopen => rw [sortLines, if_pos hopen]
  · split at h <;> cases h

theorem sortLines_cons_header (h : l.role owner = .header) (ls : List Line) :
    ∃ s, l.signature? = some s ∧ sortLines owner (l :: ls) =
      ([], ⟨s, l.number, (sortLines (some l.indent) ls).1⟩ :: (sortLines (some l.indent) ls).2.1,
        (sortLines (some l.indent) ls).2.2) := by
  unfold Line.role at h
  split at h
  · cases h
  · next hclosed =>
    split at h
    · next hs =>
      obtain ⟨s, hs⟩ := Option.isSome_iff_exists.1 hs
      refine ⟨s, hs, ?_⟩
      rw [sortLines, if_neg hclosed, hs]
    · cases h

theorem sortLines_cons_entry (h : l.role owner = .entry) (ls : List Line) :
    sortLines owner (l :: ls) = ([], (sortLines none ls).2.1, l :: (sortLines none ls).2.2) := by
  unfold Line.role at h
  split at h
  · cases h
  · next hclosed =>
    split at h
    · cases h
    · next hs =>
      rw [Option.not_isSome_iff_eq_none] at hs
      rw [sortLines, if_neg hclosed, hs]

end Sorting

/-- **Sorting goes by the roles**: the entry point holds the lines of its own
role, the functions those under the definitions, and every header makes a
function. -/
theorem sortLines_eq_roles : ∀ (ls : List Line) (owner : Option Nat),
    (sortLines owner ls).2.2 = ofRole .entry (roles owner ls) ∧
    (sortLines owner ls).1 ++ (sortLines owner ls).2.1.flatMap Function.body =
      ofRole .body (roles owner ls) ∧
    (sortLines owner ls).2.1.map (fun f => (some f.signature, f.line)) =
      (ofRole .header (roles owner ls)).map fun l => (l.signature?, l.number)
  | [], _ => ⟨rfl, rfl, rfl⟩
  | l :: ls, owner => by
    obtain ⟨hentry, hbody, hheader⟩ := sortLines_eq_roles ls (l.opens owner)
    cases hr : l.role owner with
    | body =>
      have hopen : l.opens owner = owner := by rw [Line.opens, hr]
      rw [hopen] at hentry hbody hheader
      rw [sortLines_cons_body hr, roles, hr, hopen]
      exact ⟨hentry, congrArg (l :: ·) hbody, hheader⟩
    | header =>
      have hopen : l.opens owner = some l.indent := by rw [Line.opens, hr]
      rw [hopen] at hentry hbody hheader
      obtain ⟨s, hs, hsort⟩ := sortLines_cons_header hr ls
      rw [hsort, roles, hr, hopen]
      refine ⟨hentry, hbody, ?_⟩
      simp only [ofRole, List.filter_cons, decide_true, if_true, List.map_cons, hs]
      exact congrArg _ hheader
    | entry =>
      have hopen : l.opens owner = none := by rw [Line.opens, hr]
      rw [hopen] at hentry hbody hheader
      rw [sortLines_none, List.nil_append] at hbody
      rw [sortLines_cons_entry hr, roles, hr, hopen]
      exact ⟨congrArg (l :: ·) hentry, hbody, hheader⟩

/-! ### What a header stands under -/

/-- A line stands under one of the entry point: that is shallower than the line
and than everything between the two. -/
def Under (before : List (Role × Line)) (l : Line) : Prop :=
  ∃ pre m mid, before = pre ++ (Role.entry, m) :: mid ∧ m.indent < l.indent ∧
    ∀ k ∈ mid, m.indent < k.2.indent

theorem exists_roles_of_append : ∀ {before rest : List (Role × Line)} {owner : Option Nat}
    {ls : List Line}, roles owner ls = before ++ rest → ∃ owner' ls', rest = roles owner' ls'
  | [], _, owner, ls, h => ⟨owner, ls, h.symm⟩
  | _ :: before, rest, owner, [], h => by simp [roles] at h
  | _ :: before, rest, owner, l :: ls, h => by
    rw [roles, List.cons_append] at h
    injection h with _ hrest
    exact exists_roles_of_append hrest

theorem role_of_deeper {i : Nat} {r : Role} {l : Line} {after : List (Role × Line)} :
    ∀ {mid : List (Role × Line)} {ls : List Line}, (∀ k ∈ mid, i < k.2.indent) → i < l.indent →
    roles (some i) ls = mid ++ (r, l) :: after → r = .body
  | mid, [], _, _, h => by simp [roles] at h
  | [], m :: ls, _, hl, h => by
    rw [roles, List.nil_append] at h
    injection h with hfirst hrest
    cases hfirst
    simp [Line.role, hl]
  | k :: mid, m :: ls, hmid, hl, h => by
    rw [roles, List.cons_append] at h
    injection h with hfirst hrest
    subst hfirst
    have hm : i < m.indent := hmid (m.role (some i), m) (List.mem_cons_self ..)
    have hopen : m.opens (some i) = some i := by simp [Line.opens, Line.role, hm]
    rw [hopen] at hrest
    exact role_of_deeper (fun k hk => hmid k (List.mem_cons_of_mem _ hk)) hl hrest

theorem role_of_encloses {owner : Option Nat} {ls : List Line} {q r : Role} {m l : Line}
    {pre mid after : List (Role × Line)}
    (h : roles owner ls = pre ++ (q, m) :: (mid ++ (r, l) :: after)) (hl : m.indent < l.indent)
    (hmid : ∀ k ∈ mid, m.indent < k.2.indent) (hq : q ≠ .entry) : r = .body := by
  obtain ⟨owner, ls, hsuffix⟩ := exists_roles_of_append h
  cases ls with
  | nil => simp [roles] at hsuffix
  | cons m' ls =>
    rw [roles] at hsuffix
    injection hsuffix with hfirst hrest
    cases hfirst
    cases hr : m.role owner with
    | entry => exact absurd hr hq
    | header =>
      rw [Line.opens, hr] at hrest
      exact role_of_deeper hmid hl hrest.symm
    | body =>
      rw [Line.opens, hr] at hrest
      obtain ⟨i, rfl, hi⟩ : ∃ i, owner = some i ∧ i < m.indent := by
        unfold Line.role at hr
        split at hr
        · next hopen => simpa using (Option.any_eq_true _ _).1 hopen
        · split at hr <;> cases hr
      exact role_of_deeper (fun k hk => hi.trans (hmid k hk)) (hi.trans hl) hrest.symm

/-- Of the shallower lines before a line, the last one encloses it. -/
theorem exists_last_shallower {i : Nat} : ∀ {before : List (Role × Line)},
    ¬ (∀ e ∈ before, i ≤ e.2.indent) →
    ∃ pre e mid, before = pre ++ e :: mid ∧ e.2.indent < i ∧ ∀ k ∈ mid, e.2.indent < k.2.indent
  | [], h => absurd nofun h
  | e :: es, h => by
    by_cases hes : ∀ k ∈ es, i ≤ k.2.indent
    · have he : e.2.indent < i := by
        rw [List.forall_mem_cons, not_and'] at h
        exact Nat.lt_of_not_le (h hes)
      exact ⟨[], e, es, rfl, he, fun k hk => he.trans_le (hes k hk)⟩
    · obtain ⟨pre, last, mid, rfl, hlast⟩ := exists_last_shallower hes
      exact ⟨e :: pre, last, mid, rfl, hlast⟩

/-- **A header stands under nothing, or under a line of the entry point.** -/
theorem under_entry_of_header {ls : List Line} {before after : List (Role × Line)} {l : Line}
    (h : roles none ls = before ++ (.header, l) :: after) :
    (∀ e ∈ before, l.indent ≤ e.2.indent) ∨ Under before l := by
  by_cases htop : ∀ e ∈ before, l.indent ≤ e.2.indent
  · exact .inl htop
  · obtain ⟨pre, ⟨q, m⟩, mid, rfl, hm, hmid⟩ := exists_last_shallower htop
    rw [List.append_assoc, List.cons_append] at h
    have hq : q = .entry := by
      by_contra hne
      cases role_of_encloses h hm hmid hne
    subst hq
    exact .inr ⟨pre, m, mid, rfl, hm, hmid⟩

/-! ### Definitions in converted code -/

theorem Line.Becomes.kind_ne_definition {l : Line} {i : Java.Item} (h : l.Becomes i) :
    l.kind ≠ .definition := by
  cases h <;> simp [*]

theorem Preserved.kind_ne_definition {ls : List Line} {ss : List Java.Statement}
    (h : Preserved ls ss) : ∀ l ∈ ls, l.kind ≠ .definition := by
  unfold Preserved at h
  have hkinds := h.imp fun e i hi => And.intro hi.2.kind_ne_definition hi.1
  intro l hl hk
  rw [← map_snd_nest ls] at hl
  obtain ⟨e, he, rfl⟩ := List.mem_map.1 hl
  have hkept : e ∈ (nest ls).filter fun e => e.2.kind ≠ .pass := by
    rw [List.mem_filter, hk]
    exact ⟨he, rfl⟩
  exact ((List.forall₂_and_left _ _).1 hkinds).1 e hkept hk

theorem kind_ne_definition_of_convertProgram {source text : Text}
    (h : (convertProgram source).value = some (.code text)) :
    (∀ f ∈ (Program.ofLines (linesOf source)).functions.values, ∀ l ∈ f.body, l.kind ≠ .definition) ∧
      ∀ l ∈ (Program.ofLines (linesOf source)).entryPoint, l.kind ≠ .definition := by
  obtain ⟨c, hc, -⟩ := exists_of_convertProgram h
  obtain ⟨hbodies, hentry⟩ := Program.classified_ofLines source
  constructor
  · intro f hf
    obtain ⟨m, hm⟩ := Program.exists_method hc hf
    exact (Function.preserved_of_lower (hbodies f hf) hm).2.kind_ne_definition
  · have hmain := (Program.forall₂_methods hc).2
    exact (Program.preserved_of_lowerEntryPoint hentry hmain).kind_ne_definition

/-- **Where a definition of converted code stands.** A definition makes a
function, or it is lost in the body of one that a later one of its name
replaces; every other definition is reported. Where it makes a function, it is
no deeper than anything before it, or it is taken out of a block of the entry
point. -/
theorem definition_of_convertProgram {source text : Text}
    (h : (convertProgram source).value = some (.code text)) {before after : List (Role × Line)}
    {r : Role} {l : Line} (hl : roles none (linesOf source) = before ++ (r, l) :: after)
    (hk : l.kind = .definition) :
    (r = .body ∧ ∃ f ∈ (sortLines none (linesOf source)).2.1,
      l ∈ f.body ∧ f ∉ (Program.ofLines (linesOf source)).functions.values) ∨
    (r = .header ∧ ((∀ e ∈ before, l.indent ≤ e.2.indent) ∨ Under before l)) := by
  obtain ⟨hfunctions, hmain⟩ := kind_ne_definition_of_convertProgram h
  obtain ⟨hentry, hbody, -⟩ := sortLines_eq_roles (linesOf source) none
  have hmem : l ∈ ofRole r (roles none (linesOf source)) := by
    rw [hl]
    simp [ofRole]
  cases r with
  | header => exact .inr ⟨rfl, under_entry_of_header hl⟩
  | entry =>
    rw [← hentry] at hmem
    exact absurd hk (hmain l hmem)
  | body =>
    rw [← hbody, sortLines_none, List.nil_append] at hmem
    obtain ⟨f, hf, hlf⟩ := List.mem_flatMap.1 hmem
    exact .inl ⟨rfl, f, hf, hlf, fun hkept => hfunctions f hkept l hlf hk⟩

/-- A definition in a branch of a conditional, after another statement. -/
def nested : Text := "if True:\n    x = 1\n    def f():\n        return 1\n".toList

theorem definition_of_convertProgram_nested :
    ∃ before l after, roles none (linesOf nested) = before ++ (Role.header, l) :: after ∧
      Under before l := by
  obtain ⟨text, hcode⟩ : ∃ text, (convertProgram nested).value = some (.code text) :=
    exists_text_of_isCode (by decide +kernel)
  have hroles : roles none (linesOf nested) =
      [(.entry, ⟨"if True:", 0, 1, .ifHeader⟩), (.entry, ⟨"x = 1", 4, 2, .assignment⟩)] ++
        (.header, ⟨"def f():", 4, 3, .definition⟩) ::
          [(.body, ⟨"return 1", 8, 4, .returned⟩)] := by decide +kernel
  rcases definition_of_convertProgram hcode hroles rfl with ⟨hr, -⟩ | ⟨-, htop | hunder⟩
  · cases hr
  · exact absurd htop (by decide)
  · exact ⟨_, _, _, hroles, hunder⟩

/-- The definition is taken out of its block: the source is converted to code
although a function is defined deeper than the first line. -/
theorem isCode_nested_header :
    (∃ text, (convertProgram nested).value = some (.code text)) ∧
      ∃ e ∈ roles none (linesOf nested), e.1 = .header ∧
        ∀ first ∈ (linesOf nested).head?, first.indent < e.2.indent :=
  ⟨exists_text_of_isCode (by decide +kernel), by decide +kernel⟩

end Offside
