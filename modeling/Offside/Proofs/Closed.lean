/-
# Literals of generated code

A translation leaves a reader where its text leaves it
(`Quote.after_translateFrom`), and only a text that ends in no literal is
translated. So whatever a class is made of ends in no literal, except a line
that calls: it is copied as it stands, without a translation, and a literal
that it leaves open is left open in the class (`literals_closed`).

Key definitions: `Java.Item.expressions`.
Key theorems: `Quote.after_translateFrom`, `Part.Becomes.closed_or_call`,
`Block.mem_leaves_of_mem_parts`, `Program.exists_block_of_mem_bodies`,
`literals_closed`, `literals_closed_copied`.
-/
import Offside.Proofs.Arguments
import Offside.Proofs.Clashes
import Offside.Proofs.Literals
import Offside.Proofs.Returns

namespace Offside

/-! ### Texts that end in no literal -/

/-- A mask shows an even number of quotes exactly if its text ends in no
literal. -/
theorem even_count_mask_iff (t : Text) : Even ((mask t).count '"') ↔ isClosed t = true := by
  have hodd := odd_count_maskFrom .outside t
  rw [← Nat.not_even_iff_odd] at hodd
  rw [mask, isClosed, beq_iff_eq]
  simpa using not_congr hodd

theorem isClosed_append {s t : Text} (hs : isClosed s = true) (ht : isClosed t = true) :
    isClosed (s ++ t) = true := by
  rw [isClosed, beq_iff_eq] at hs ht ⊢
  rw [Quote.after_append, hs, ht]

theorem isClosed_intercalate {sep : Text} (hsep : isClosed sep = true) : ∀ {ts : List Text},
    (∀ t ∈ ts, isClosed t = true) → isClosed (List.intercalate sep ts) = true
  | [], _ => rfl
  | [t], h => by
    rw [List.intercalate_singleton]
    exact h t (List.mem_singleton_self t)
  | t :: u :: ts, h => by
    obtain ⟨ht, hts⟩ := List.forall_mem_cons.1 h
    rw [List.intercalate_cons_cons]
    exact isClosed_append (isClosed_append ht hsep) (isClosed_intercalate hsep hts)

theorem Quote.after_neutral {s : Text} (h : ∀ c ∈ s, isNeutral c = true) : after .outside s = .outside := by
  have hquote := Nesting.after_quote {} s
  rw [(Nesting.after_neutral rfl h).1] at hquote
  exact hquote.symm

theorem Quote.after_substitute {q : Quote} {word : Text} (hq : word ≠ [] → q = .outside)
    (hword : ∀ c ∈ word, isNameChar c = true) : q.after (substitute word) = q := by
  by_cases hnil : word = []
  · rw [hnil, substitute_nil]
    rfl
  · rw [hq hnil]
    exact after_neutral (isNeutral_substitute hword)

/-- **A translation leaves a reader where its text leaves it.** The text goes on
with the letters `word` of an unfinished word. -/
theorem Quote.after_translateFrom : ∀ (t : Text) {q : Quote} {word : Text}, (word ≠ [] → q = .outside) →
    (∀ c ∈ word, isNameChar c = true) → q.after (translateFrom q word t) = q.after t
  | [], q, word, hq, hword => after_substitute hq hword
  | c :: cs, q, word, hq, hword => by
    rw [after_cons]
    by_cases hletter : q = .outside ∧ isNameChar c = true
    · obtain ⟨rfl, hc⟩ := hletter
      have hnext : next .outside c = .outside := by simp [next, ne_quote_of_isNameChar hc]
      have hword' : ∀ d ∈ word ++ [c], isNameChar d = true := by
        simpa [or_imp, forall_and] using ⟨hword, hc⟩
      rw [translateFrom, if_pos ⟨rfl, hc⟩, after_translateFrom cs (fun _ => rfl) hword', hnext]
    · have hnone : ([] : Text) ≠ [] → q.next c = .outside := fun hne => absurd rfl hne
      rw [translateFrom_copy hletter, after_append, after_substitute hq hword, after_cons,
        after_translateFrom cs hnone (List.forall_mem_nil _)]

/-- **A translation ends in no literal.** -/
theorem isClosed_of_translate {t e : Text} (h : translate? t = some e) : isClosed e = true := by
  obtain ⟨hclosed, rfl⟩ := (translate?_eq_some_iff t e).1 h
  rw [isClosed, Quote.after_translateFrom t (fun hne => absurd rfl hne) (List.forall_mem_nil _)]
  exact hclosed

/-! ### What is generated of a part -/

/-- The expressions of an item. -/
def Java.Item.expressions : Java.Item → List Text
  | .declaration _ _ value | .assignment _ _ value | .println value => [value]
  | .ifThen condition | .elseIf condition | .whileLoop condition => [condition]
  | .forLoop _ start stop step => [start, stop, step]
  | .returned value => value.toList
  | .call text => [text]
  | .orElse | .breakLoop | .continueLoop => []

/-- **A part becomes expressions that end in no literal, unless it is a call.** -/
theorem Part.Becomes.closed_or_call {start : Scope} {p : Place} {part : Part} {i : Java.Item}
    (h : part.Becomes start p i) : ∀ e ∈ i.expressions,
      isClosed e = true ∨ i = .call e ∧ ∃ line, part = .statement (.call line e) := by
  intro e he
  cases h with
  | orElse | returnNothing | breakLoop | continueLoop => exact absurd he List.not_mem_nil
  | @call line text =>
    obtain rfl := List.mem_singleton.1 he
    exact .inr ⟨rfl, line, rfl⟩
  | ifThen ht | elseIf ht | whileLoop ht | returnValue ht | declaration ht | assignment ht | update ht =>
    obtain rfl := List.mem_singleton.1 he
    exact .inl (isClosed_of_translate ht)
  | forLoop hfirst hlast hstep =>
    simp only [Java.Item.expressions, List.mem_cons, List.not_mem_nil, or_false] at he
    rcases he with rfl | rfl | rfl
    · exact .inl (isClosed_of_translate hfirst)
    · exact .inl (isClosed_of_translate hlast)
    · exact .inl (isClosed_of_translate hstep)
  | @println _ arguments ts hts =>
    obtain rfl := List.mem_singleton.1 he
    refine .inl (isClosed_intercalate (by decide) fun t ht => ?_)
    have hmem : some t ∈ arguments.map translate? := hts ▸ List.mem_map_of_mem ht
    obtain ⟨a, -, ha⟩ := List.mem_map.1 hmem
    exact isClosed_of_translate ha

/-! ### Parts and leaves -/

-- The recursion is that of the parts.
mutual

theorem Tree.mem_leaves_of_mem_parts : ∀ (t : Tree) {p q : Place} {u : Tree}, u.isSimple = true →
    (q, .statement u) ∈ t.parts p → u ∈ t.leaves
  | .conditional line branches otherwise, p, q, u, hu, h => by
    rw [Tree.parts, List.mem_append] at h
    rw [Tree.leaves, List.mem_append]
    exact h.imp (mem_leavesOfBranches_of_mem_parts branches hu) (mem_leavesOfElse_of_mem_parts otherwise hu)
  | .whileLoop line condition body, p, q, u, hu, h => by
    rw [Tree.parts, List.mem_cons] at h
    rcases h with h | h
    · cases h
      cases hu
    · exact Block.mem_leaves_of_mem_parts body hu h
  | .forLoop line loop body, p, q, u, hu, h => by
    rw [Tree.parts, List.mem_cons] at h
    rcases h with h | h
    · cases h
      cases hu
    · exact Block.mem_leaves_of_mem_parts body hu h
  | .returned _ _, p, q, u, hu, h | .print _ _, p, q, u, hu, h | .call _ _, p, q, u, hu, h
  | .assignment _ _ _, p, q, u, hu, h | .update _ _ _ _, p, q, u, hu, h | .pass _, p, q, u, hu, h
  | .breakLoop _, p, q, u, hu, h | .continueLoop _, p, q, u, hu, h | .malformed _ _, p, q, u, hu, h => by
    cases List.mem_singleton.1 h
    exact List.mem_singleton_self _

/-- **A simple statement among the parts of a block is one of its leaves.** -/
theorem Block.mem_leaves_of_mem_parts : ∀ (ts : List Tree) {p q : Place} {u : Tree}, u.isSimple = true →
    (q, .statement u) ∈ Block.parts p ts → u ∈ Block.leaves ts
  | [], _, _, _, _, h => absurd h List.not_mem_nil
  | t :: ts, p, q, u, hu, h => by
    rw [Block.parts, List.mem_append] at h
    rw [Block.leaves, List.mem_append]
    exact h.imp (Tree.mem_leaves_of_mem_parts t hu) (Block.mem_leaves_of_mem_parts ts hu)

theorem mem_leavesOfBranches_of_mem_parts : ∀ (branches : List (Text × List Tree)) {p inner q : Place}
    {first : Bool} {u : Tree}, u.isSimple = true →
    (q, .statement u) ∈ partsOfBranches p inner first branches → u ∈ leavesOfBranches branches
  | [], _, _, _, _, _, _, h => absurd h List.not_mem_nil
  | (condition, body) :: more, p, inner, q, first, u, hu, h => by
    rw [partsOfBranches, List.cons_append, List.mem_cons, List.mem_append] at h
    rw [leavesOfBranches, List.mem_append]
    rcases h with h | h | h
    · cases first <;> cases h
    · exact .inl (Block.mem_leaves_of_mem_parts body hu h)
    · exact .inr (mem_leavesOfBranches_of_mem_parts more hu h)

theorem mem_leavesOfElse_of_mem_parts : ∀ (otherwise : Option (List Tree)) {p inner q : Place} {u : Tree},
    u.isSimple = true → (q, .statement u) ∈ partsOfElse p inner otherwise → u ∈ leavesOfElse otherwise
  | none, _, _, _, _, _, h => absurd h List.not_mem_nil
  | some body, p, inner, q, u, hu, h => by
    rw [partsOfElse, List.mem_cons] at h
    rcases h with h | h
    · cases h
    · exact Block.mem_leaves_of_mem_parts body hu h

end

theorem exists_call_of_madeBy {ls : List Line} {line : Nat} {text : Text} (h : MadeBy ls (.call line text)) :
    ∃ l ∈ ls, l.kind = .call ∧ l.number = line ∧ l.text = text := by
  obtain ⟨l, hl, hmakes⟩ := h
  cases hmakes with
  | whole hs =>
    cases Line.speaks_of_sentence hs with
    | call hk => exact ⟨l, hl, hk, rfl, rfl⟩

/-! ### Classes -/

/-- **Every body of a class is that of a block of the program.** -/
theorem Program.exists_block_of_mem_bodies {p : Program} {c : Java.Class} (h : p.lower.value = some (.ok c))
    {ss : List Java.Statement} (hss : ss ∈ c.bodies) : ∃ ls ∈ p.parts, ∃ b, Block.ofLines? ls = some b ∧
      ∃ inFunction start, lowerBlock inFunction start b = .ok ss := by
  obtain ⟨hmethods, hmain⟩ := forall₂_methods h
  rcases List.mem_cons.1 hss with rfl | hss
  · rw [value_lowerEntryPoint] at hmain
    obtain ⟨b, hread, hb⟩ := Option.map_eq_some_iff.1 hmain
    exact ⟨_, List.mem_cons_self .., b, hread, false, [], hb⟩
  · obtain ⟨m, hm, rfl⟩ := List.mem_map.1 hss
    obtain ⟨f, hf, hlower⟩ := exists_of_mem_right hmethods hm
    obtain ⟨b, hread, hmethod⟩ := Function.exists_block_of_lower hlower
    exact ⟨f.body, List.mem_cons_of_mem _ (List.mem_map_of_mem hf), b, hread, true, f.scope,
      (Function.of_method hmethod).1⟩

/-- **What a class is made of ends in no literal, except for calls.** An
expression of a class whose mask shows an odd number of quotes is a whole line
of the program, one that calls. -/
theorem literals_closed {p : Program} {c : Java.Class} (h : p.lower.value = some (.ok c)) :
    ∀ ss ∈ c.bodies, ∀ i ∈ Java.items 0 ss, ∀ e ∈ i.2.expressions, Even ((mask e).count '"') ∨
      i.2 = .call e ∧ ∃ ls ∈ p.parts, ∃ l ∈ ls, l.kind = .call ∧ l.text = e := by
  intro ss hss i hi e he
  obtain ⟨ls, hls, b, hread, inFunction, start, hb⟩ := Program.exists_block_of_mem_bodies h hss
  obtain ⟨x, hx, -, hbecomes⟩ := exists_of_mem_right (Block.emits_of_lowerBlock hb) hi
  rcases hbecomes.closed_or_call e he with hclosed | ⟨hitem, line, hpart⟩
  · exact .inl ((even_count_mask_iff e).2 hclosed)
  · have hmem : (x.1, .statement (.call line e)) ∈ Block.parts .top b := by
      rw [← hpart]
      exact (List.mem_filter.1 hx).1
    have hleaf := Block.mem_leaves_of_mem_parts b rfl hmem
    obtain ⟨l, hl, hk, -, htext⟩ := exists_call_of_madeBy (Block.made_of_ofLines hread _ hleaf)
    exact .inr ⟨hitem, ls, hls, l, hl, hk, htext⟩

/-- A function and a loop that hold literals, and a call that leaves one open. -/
def quoted : Text :=
  "def f(n):\n    return \"a\" + n\nx = \"\\\"b\"\nwhile x != \"c\":\n    print(x, \"d, e\")\n    f(\"g)\n".toList

theorem literals_closed_quoted : ∃ c, (Program.ofLines (linesOf quoted)).lower.value = some (.ok c) ∧
    ∀ ss ∈ c.bodies, ∀ i ∈ Java.items 0 ss, ∀ e ∈ i.2.expressions,
      Even ((mask e).count '"') ∨ e = "f(\"g)" := by
  have hok : (Program.ofLines (linesOf quoted)).lower.value.any
      (fun g => g.toOption.any fun _ => true) = true := by decide +kernel
  have hcalls : ∀ ls ∈ (Program.ofLines (linesOf quoted)).parts, ∀ l ∈ ls, l.kind = .call →
      l.text = "f(\"g)" := by decide +kernel
  obtain ⟨c, hc, -⟩ := Program.exists_of_check hok
  refine ⟨c, hc, fun ss hss i hi e he => ?_⟩
  rcases literals_closed hc ss hss i hi e he with heven | ⟨-, ls, hls, l, hl, hk, rfl⟩
  · exact .inl heven
  · exact .inr (hcalls ls hls l hl hk)

/-- A call that leaves a literal open. -/
def copied : Text := "f(\"a)\n".toList

/-- The call is copied into the class, and the literal is left open there. -/
theorem literals_closed_copied : ∃ c, (Program.ofLines (linesOf copied)).lower.value = some (.ok c) ∧
    ∃ ss ∈ c.bodies, ∃ i ∈ Java.items 0 ss, ∃ e ∈ i.2.expressions, ¬ Even ((mask e).count '"') := by
  have hopen : (Program.ofLines (linesOf copied)).lower.value.any (fun g => g.toOption.any fun c =>
      c.bodies.any fun ss => (Java.items 0 ss).any fun i => i.2.expressions.any fun e =>
        decide (¬ Even ((mask e).count '"'))) = true := by decide +kernel
  obtain ⟨c, hc, hopen⟩ := Program.exists_of_check hopen
  refine ⟨c, hc, ?_⟩
  simpa only [List.any_eq_true, decide_eq_true_eq] using hopen

end Offside
