/-
# A queue is read as its outline

The entries of a section are taken off a queue one after the other, each with
its body, just as the section is read (`taken`): a section starts a block, or
goes on with a conditional, and its end is a shallower line. So a queue is read
as the outline of its lines (`takeTiers?_ofLines`), and nothing that would keep
the reader from ending comes up.

Key definitions: `Taken`, `Entry.Ahead`, `Outline.tiers?`.
Key theorems: `Entry.Ahead.takeStatement?_eq`, `Entry.Ahead.takeBranches?_eq`,
`taken`, `takeTiers?_section`, `takeTiers?_ofLines`.
-/
import Offside.Proofs.Queues
import Offside.Proofs.Reading

namespace Offside

/-! ### Entry by entry -/

/-- What an entry comes to, and what the entries after it are read as then,
with `tail` left on the queue. -/
def Entry.Step.before (es : Section) (tail : List Line) (st : Entry.Step) : Option (Block × List Line) :=
  (readSection st.2 es).map fun b => (st.1 ++ b, tail)

/-- The entries `es` at the indentation `i` are taken off a queue as they are
read, and `tail` is left: they start a block, or they go on with the
conditional that a line at their indentation starts. -/
structure Taken (i : Nat) (es : Section) (tail : List Line) : Prop where
  block (inner : Option Nat) :
    takeBlock? i inner (Section.lines es ++ tail) = (readSection none es).map (·, tail)
  branches {c : Chain} {l : Line} {n : Nat} : l.indent = i → l.number = c.line →
    (Section.lines es ++ tail).length < n →
    (takeBranches? (takeInner? n) l c.branches (Section.lines es ++ tail)).bind (resume? i n (some c.inner)) =
      (readSection (some c) es).map (·, tail)

/-- The body of an entry is taken off a queue of fewer than `n` lines as it is
read; the lines that it leaves over stay before `rest`. -/
def Entry.BodyTaken (e : Entry) (n : Nat) (rest : List Line) : Prop :=
  takeBody? (takeInner? n) e.line (Outline.lines e.under ++ rest) =
    e.body.map (·, Outline.lines (e.under.drop 1) ++ rest)

section Entries

variable {i n : Nat} {e : Entry} {es : Section} {tail : List Line}

/-- A statement is resumed after, past lines that belong to no body. -/
theorem Taken.resume?_strays (h : Taken i es tail)
    (hrest : ∀ m ∈ (Section.lines es ++ tail).head?, m.indent ≤ i) {o : Outline}
    (ho : Outline.Nested (i + 1) o) {inner : Option Nat} {t : Tree}
    (hn : (Outline.lines o ++ (Section.lines es ++ tail)).length < n) :
    resume? i n inner (t, Outline.lines o ++ (Section.lines es ++ tail)) =
      Entry.Step.before es tail (t :: strays inner (Entry.heads o), none) := by
  rw [resume?, if_pos hn, takeBlock?_strays hrest inner o ho, h.block, map_prepend, Option.map_map]
  rfl

theorem Taken.resume?_eq (h : Taken i es tail)
    (hrest : ∀ m ∈ (Section.lines es ++ tail).head?, m.indent ≤ i) {inner : Option Nat} {t : Tree}
    (hn : (Section.lines es ++ tail).length < n) :
    resume? i n inner (t, Section.lines es ++ tail) = Entry.Step.before es tail ([t], none) :=
  h.resume?_strays hrest (o := []) trivial hn

/-- An entry before entries that are taken off a queue of fewer than `n` lines
as they are read. -/
structure Entry.Ahead (e : Entry) (n : Nat) (es : Section) (tail : List Line) : Prop where
  nested : e.Nested
  body : e.BodyTaken n (Section.lines es ++ tail)
  rest : Taken e.line.indent es tail
  next : ∀ m ∈ (Section.lines es ++ tail).head?, m.indent ≤ e.line.indent
  few : (Outline.lines e.under ++ (Section.lines es ++ tail)).length < n

namespace Entry.Ahead

variable (h : e.Ahead n es tail)

include h

theorem fewer : (Section.lines es ++ tail).length < n := by
  have := h.few
  rw [List.length_append] at this
  omega

theorem few_leftover : (Outline.lines (e.under.drop 1) ++ (Section.lines es ++ tail)).length < n := by
  have := h.few
  have := Outline.length_lines_drop e.under
  rw [List.length_append] at *
  omega

/-- What a body leaves over is reported after the statement. -/
theorem resume?_finish (inner : Option Nat) (t : Tree) :
    resume? e.line.indent n inner (t, Outline.lines (e.under.drop 1) ++ (Section.lines es ++ tail)) =
      Step.before es tail (e.finish inner t) :=
  h.rest.resume?_strays h.next h.nested.under.drop h.few_leftover

theorem resume?_refused {inner : Option Nat} {p : Problem} :
    resume? e.line.indent n inner (.malformed e.line.number p,
        passOver e.line.indent (Outline.lines e.under ++ (Section.lines es ++ tail))) =
      Step.before es tail (e.fault p) := by
  rw [passOver_append (e.le_indent h.nested) h.next]
  exact h.rest.resume?_eq h.next h.fewer

/-- What needs a body is taken off with it as the entry is read, or is a problem
without one. -/
theorem takeBody?_bind {inner : Option Nat} {make : Block → Step}
    {goOn : Option Block × List Line → Option (Tree × List Line)}
    (hnone : ∀ rest, goOn (none, rest) = some (.malformed e.line.number (.missingBody e.line.text), rest))
    (hsome : ∀ b, e.body = some (some b) →
      (goOn (some b, Outline.lines (e.under.drop 1) ++ (Section.lines es ++ tail))).bind
        (resume? e.line.indent n inner) = Step.before es tail (make b)) :
    ((takeBody? (takeInner? n) e.line (Outline.lines e.under ++ (Section.lines es ++ tail))).bind goOn).bind
        (resume? e.line.indent n inner) =
      (e.body.map (e.withBody · make)).bind (Step.before es tail) := by
  rw [h.body]
  cases hb : e.body with
  | none => rfl
  | some b? =>
    cases b? with
    | none =>
      rw [Option.map_some, Option.bind_some, hnone, under_of_body hb]
      exact h.rest.resume?_eq h.next h.fewer
    | some b => exact hsome b hb

theorem takeWith?_eq {inner : Option Nat} (make : Block → Tree) :
    (takeWith? (takeInner? n) e.line make (Outline.lines e.under ++ (Section.lines es ++ tail))).bind
        (resume? e.line.indent n inner) =
      (e.body.map (e.withBody · fun b => e.finish inner (make b))).bind (Step.before es tail) := by
  rw [takeWith?, Option.map_eq_bind]
  exact h.takeBody?_bind (fun _ => rfl) fun _ _ => h.resume?_finish _ _

theorem takeBranches?_goOn {l : Line} {c : Chain} (hl : l.indent = e.line.indent) (hc : l.number = c.line) :
    (takeBranches? (takeInner? n) l c.branches
        (Outline.lines (e.under.drop 1) ++ (Section.lines es ++ tail))).bind
        (resume? e.line.indent n (some c.inner)) =
      Step.before es tail (e.goOn c) := by
  rcases goOn_cases e c with ⟨hleft, hgo⟩ | ⟨hleft, hgo⟩
  · have hdrop : e.under.drop 1 = [] := Outline.eq_nil_of_heads h.nested.under.drop hleft
    rw [hgo, hdrop]
    calc (takeBranches? (takeInner? n) l c.branches (Section.lines es ++ tail)).bind
          (resume? e.line.indent n (some c.inner))
        = (readSection (some c) es).map (·, tail) := h.rest.branches hl hc h.fewer
      _ = Step.before es tail ([], some c) := rfl
  · -- the first line left over is deeper than the branches, so it is none of them
    obtain ⟨x, hx⟩ := List.exists_mem_of_ne_nil _ hleft
    have hx : x ∈ Outline.lines (e.under.drop 1) := Outline.mem_lines_of_mem_heads x hx
    obtain ⟨m, more, hlines⟩ := List.exists_cons_of_ne_nil (List.ne_nil_of_mem hx)
    have hdeeper : e.line.indent < m.indent :=
      Outline.le_indent _ h.nested.under.drop m (by rw [hlines]; exact List.mem_cons_self ..)
    have hfinish := h.resume?_finish (some c.inner) (c.close none)
    rw [hlines, List.cons_append] at hfinish ⊢
    rw [hgo, takeBranches?_closes (.inl (by omega)), hc]
    exact hfinish

/-- **A statement is taken off a queue as its entry is read.** -/
theorem takeStatement?_eq :
    (takeStatement? (takeInner? n) e.line (Outline.lines e.under ++ (Section.lines es ++ tail))).bind
        (resume? e.line.indent n e.inner) =
      (e.start e.body).bind (Step.before es tail) := by
  rw [takeStatement?, start]
  cases hs : e.line.sentence? with
  | none => rfl
  | some sentence =>
    cases sentence with
    | whole t =>
      calc resume? e.line.indent n e.inner (t, Outline.lines e.under ++ (Section.lines es ++ tail))
          = Step.before es tail (t :: strays e.inner (heads e.under), none) :=
            h.rest.resume?_strays h.next h.nested.under h.few
        _ = Step.before es tail (t :: strays none (heads e.under), none) := by
            rw [inner_eq_indent?, strays_indent? h.nested.under]
    | refused p => exact h.resume?_refused
    | loop condition => exact h.takeWith?_eq _
    | range loop => exact h.takeWith?_eq _
    | branch condition =>
      refine h.takeBody?_bind (fun _ => rfl) fun b hb => ?_
      obtain ⟨j, hj⟩ := Option.isSome_iff_exists.1 (isSome_inner_of_body h.nested hb)
      rw [hj]
      exact h.takeBranches?_goOn (c := ⟨e.line.number, j, [(condition, b)]⟩) rfl rfl

/-- **A further branch is taken off a queue as its entry is read.** -/
theorem takeBranches?_eq {l : Line} {c : Chain} (hl : l.indent = e.line.indent) (hc : l.number = c.line)
    (hk : e.line.kind.continuesConditional = true) :
    (takeBranches? (takeInner? n) l c.branches
        (e.line :: (Outline.lines e.under ++ (Section.lines es ++ tail)))).bind
        (resume? e.line.indent n (some c.inner)) =
      (e.step (some c) e.body).bind (Step.before es tail) := by
  rw [takeBranches?, if_pos ⟨hl.symm, hk⟩]
  by_cases helif : e.line.kind = .elifHeader
  · rw [if_pos helif, step_elif helif, elseIf]
    cases hr : readHeader? "elif" e.line.text with
    | none => rfl
    | some header =>
      cases header with
      | error p => exact h.resume?_refused
      | ok condition =>
        refine h.takeBody?_bind (fun _ => rfl) fun b _ => ?_
        have hfits : (Outline.lines (e.under.drop 1) ++ (Section.lines es ++ tail)).length ≤
            (Outline.lines e.under ++ (Section.lines es ++ tail)).length := by
          have := Outline.length_lines_drop e.under
          simp only [List.length_append]
          omega
        simp only [if_pos hfits]
        exact h.takeBranches?_goOn (c := c.add condition b) hl hc
  · have helse : e.line.kind = .elseHeader := by
      cases hkind : e.line.kind <;> simp_all [Line.Kind.continuesConditional]
    rw [if_neg helif, step_else helse, orElse]
    cases hr : afterKeyword? "else" e.line.text with
    | none => rfl
    | some after =>
      simp only [Option.bind_eq_bind, Option.bind_some]
      by_cases hcolon : Text.trim after = [':']
      · rw [if_pos hcolon, if_pos hcolon, hc]
        exact h.takeWith?_eq _
      · rw [if_neg hcolon, if_neg hcolon]
        exact h.resume?_refused

end Entry.Ahead

theorem bind_before_step (chain : Option Chain) :
    (e.step chain e.body).bind (Entry.Step.before es tail) = (readSection chain (e :: es)).map (·, tail) := by
  rw [readSection_cons, Option.map_bind]
  congr 1
  funext st
  rw [Function.comp_apply, Option.map_map]
  rfl

end Entries

theorem Taken.nil {i : Nat} {tail : List Line} (htail : ∀ m ∈ tail.head?, m.indent < i) :
    Taken i [] tail where
  block inner := takeBlock?_shallow htail
  branches {c l n} hl hc hn := by
    have hclose : takeBranches? (takeInner? n) l c.branches tail = some (c.close none, tail) := by
      cases tail with
      | nil => rw [takeBranches?, hc]; rfl
      | cons m tail =>
        have hm : m.indent < i := htail m rfl
        rw [takeBranches?_closes (.inl (by omega)), hc]
        rfl
    have hblock : takeBlock? i (some c.inner) tail = some ([], tail) := takeBlock?_shallow htail
    calc (takeBranches? (takeInner? n) l c.branches tail).bind (resume? i n (some c.inner))
        = resume? i n (some c.inner) (c.close none, tail) := by rw [hclose, Option.bind_some]
      _ = (takeBlock? i (some c.inner) tail).map (prepend [c.close none]) := if_pos hn
      _ = some ([c.close none], tail) := by rw [hblock]; rfl

/-- **An entry is taken off a queue as it is read** if those after it are. -/
theorem Taken.cons {e : Entry} {es : Section} {tail : List Line}
    (hahead : ∀ n, (Outline.lines e.under ++ (Section.lines es ++ tail)).length < n → e.Ahead n es tail) :
    Taken e.line.indent (e :: es) tail := by
  have hlines : Section.lines (e :: es) ++ tail =
      e.line :: (Outline.lines e.under ++ (Section.lines es ++ tail)) := by
    rw [Section.lines, e.lines_eq, List.append_assoc, List.cons_append]
  have hblock (inner : Option Nat) : takeBlock? e.line.indent inner (Section.lines (e :: es) ++ tail) =
      (readSection none (e :: es)).map (·, tail) := by
    have hfirst := hahead _ (Nat.lt_succ_self _)
    rw [hlines, takeBlock?_statement rfl, deeper?_lines hfirst.nested.under hfirst.next,
      ← Entry.inner_eq_indent?, hfirst.takeStatement?_eq, ← Entry.step_none, bind_before_step]
  refine ⟨hblock, fun {c l n} hl hc hn => ?_⟩
  -- a line that is no branch closes the conditional and starts the rest of the block
  by_cases hk : e.line.kind.continuesConditional = true
  · have hfirst := hahead n (by rw [hlines, List.length_cons] at hn; omega)
    rw [hlines, hfirst.takeBranches?_eq hl hc hk, bind_before_step]
  · have hk : e.line.kind.continuesConditional = false := by simpa using hk
    have hcloses : ∀ m ∈ (e :: es).head?, m.line.kind.continuesConditional = false := by
      simpa using hk
    calc (takeBranches? (takeInner? n) l c.branches (Section.lines (e :: es) ++ tail)).bind
          (resume? e.line.indent n (some c.inner))
        = resume? e.line.indent n (some c.inner) (c.close none, Section.lines (e :: es) ++ tail) := by
          rw [hlines, takeBranches?_closes (.inr hk), hc]
          rfl
      _ = (takeBlock? e.line.indent (some c.inner) (Section.lines (e :: es) ++ tail)).map
            (prepend [c.close none]) := if_pos hn
      _ = (readSection (some c) (e :: es)).map (·, tail) := by
          rw [hblock, readSection_closes hcloses (some c), Option.map_map, Option.map_map]
          rfl

-- The recursion is that of reading: a body is a section, and a section is an
-- entry with its body before a section.
mutual

theorem Entry.bodyTaken : ∀ (e : Entry) {n : Nat} {rest : List Line}, e.Nested →
    (∀ m ∈ rest.head?, m.indent ≤ e.line.indent) → (Outline.lines e.under ++ rest).length < n →
    e.BodyTaken n rest
  | .mk l [], n, rest, _, hrest, _ => takeBody?_of_le hrest
  | .mk l (s :: more), n, rest, hn, hrest, hlength => by
    have hdeeper := deeper?_lines hn hrest
    obtain ⟨⟨j, hj, hlt, hs, hless⟩, hmore⟩ := hn
    have hstop : ∀ m ∈ (Outline.lines more ++ rest).head?, m.indent < j :=
      Outline.head?_lines_append hmore hless fun m hm => Nat.lt_of_le_of_lt (hrest m hm) hlt
    have hbody : takeInner? n j (Outline.lines (s :: more) ++ rest) =
        (readSection none s).map (·, Outline.lines more ++ rest) := by
      have htaken := (taken s hs hstop).block none
      rw [← List.append_assoc] at htaken
      exact (if_pos hlength).trans htaken
    calc takeBody? (takeInner? n) l (Outline.lines (s :: more) ++ rest)
        = (takeInner? n j (Outline.lines (s :: more) ++ rest)).map fun (b, rest) => (some b, rest) :=
          takeBody?_of_deeper (hdeeper.trans hj)
      _ = (Entry.body (.mk l (s :: more))).map (·, Outline.lines more ++ rest) := by
          rw [hbody, Entry.body, Option.map_map, Option.map_map]
          rfl

/-- **A section is taken off a queue as it is read.** -/
theorem taken : ∀ (s : List Entry) {i : Nat} {tail : List Line}, Section.Nested i s →
    (∀ m ∈ tail.head?, m.indent < i) → Taken i s tail
  | [], _, _, _, htail => .nil htail
  | e :: es, i, tail, hs, htail => by
    obtain ⟨rfl, he, hes⟩ := hs
    have ih := taken es hes htail
    have hnext : ∀ m ∈ (Section.lines es ++ tail).head?, m.indent ≤ e.line.indent :=
      Section.head?_lines_append hes fun m hm => Nat.le_of_lt (htail m hm)
    exact .cons fun n hn => ⟨he, e.bodyTaken he hnext hn, ih, hnext, hn⟩

end

/-! ### The whole queue -/

/-- The tiers of the sections of an outline. -/
def Outline.tiers? : Outline → Option (List Tier)
  | [] => some []
  | s :: more => (readSection none s).bind fun b => (tiers? more).map (⟨Section.lines s, b⟩ :: ·)

/-- **A section is the first tier of a queue** before shallower lines. -/
theorem takeTiers?_section {i : Nat} {e : Entry} {es : Section} {tail : List Line}
    (hs : Section.Nested i (e :: es)) (htail : ∀ m ∈ tail.head?, m.indent < i) :
    takeTiers? (Section.lines (e :: es) ++ tail) =
      (readSection none (e :: es)).bind fun b =>
        (takeTiers? tail).map (⟨Section.lines (e :: es), b⟩ :: ·) := by
  have hblock := (taken (e :: es) hs htail).block none
  obtain rfl := hs.1
  obtain ⟨queue, hqueue⟩ : ∃ queue, Section.lines (e :: es) = e.line :: queue :=
    ⟨Outline.lines e.under ++ Section.lines es, by rw [Section.lines, e.lines_eq, List.cons_append]⟩
  rw [hqueue, List.cons_append] at hblock ⊢
  rw [takeTiers?, hblock]
  cases readSection none (e :: es) with
  | none => rfl
  | some b =>
    have hshorter : tail.length < (e.line :: (queue ++ tail)).length := by
      simp only [List.length_cons, List.length_append]
      omega
    have hfront : (e.line :: (queue ++ tail)).take ((e.line :: (queue ++ tail)).length - tail.length) =
        e.line :: queue := by
      rw [← List.cons_append, List.length_append, Nat.add_sub_cancel, List.take_left]
    simp only [Option.map_some, Option.bind_some, if_pos hshorter, hfront]

theorem takeTiers?_lines : ∀ (o : Outline) {k : Nat}, Outline.Nested k o →
    takeTiers? (Outline.lines o) = o.tiers?
  | [], _, _ => by rw [Outline.lines, takeTiers?, Outline.tiers?]
  | [] :: more, _, ⟨⟨j, hj, _⟩, _⟩ => nomatch hj
  | (e :: es) :: more, k, ⟨⟨j, hj, hij, hs, hless⟩, hmore⟩ => by
    have hnext : ∀ m ∈ (Outline.lines more ++ []).head?, m.indent < j :=
      Outline.head?_lines_append hmore hless (by simp)
    rw [List.append_nil] at hnext
    rw [Outline.lines, takeTiers?_section hs hnext, takeTiers?_lines more hmore, Outline.tiers?]

theorem readDedents_eq : ∀ o : Outline,
    readDedents o = o.tiers?.map fun tiers => tiers.flatMap fun t => t.report ++ t.block
  | [] => rfl
  | s :: more => by
    have hreport (b : Block) : Tier.report ⟨Section.lines s, b⟩ = dedent s := by
      cases s with
      | nil => rfl
      | cons e es => rw [Tier.report, Section.lines, e.lines_eq]; rfl
    rw [readDedents_cons, readDedents_eq more, Outline.tiers?, Option.map_bind]
    congr 1
    funext b
    rw [Function.comp_apply, Option.map_map, Option.map_map]
    congr 1
    funext tiers
    rw [Function.comp_apply, Function.comp_apply, List.flatMap_cons, hreport]

/-- **A queue is read as the outline of its lines.** -/
theorem takeTiers?_ofLines (ls : List Line) : (takeTiers? ls).map assemble = Block.ofLines? ls := by
  have htiers := takeTiers?_lines (Outline.ofLines ls) (Outline.nested_ofLines ls)
  rw [Outline.lines_ofLines] at htiers
  rw [htiers, Block.ofLines?]
  cases Outline.ofLines ls with
  | nil => rfl
  | cons s more =>
    rw [Outline.read?_cons, readDedents_eq, Outline.tiers?, Option.map_bind]
    congr 1
    funext b
    rw [Function.comp_apply, Option.map_map, Option.map_map]
    rfl

end Offside
