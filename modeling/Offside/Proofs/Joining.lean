/-
# Lines that follow each other

Lines that are no shallower than the first of them make up one section, and
more lines from the same indentation on add to that section
(`Outline.exists_ofLines_append`). A section is read in two parts if the second
one starts with a line that continues no conditional (`readSection_append`).
So two lists of lines are read one after the other as they are read by
themselves, whatever is wrong with either (`Block.ofLines?_append`): a problem
stays where it is.

Key definition: `Outline.extend`.
Key theorems: `Outline.exists_ofLines_append`, `readSection_append`,
`Block.ofLines?_append`, `reading_of_joined`.
-/
import Offside.Proofs.Reading

namespace Offside

/-! ### Outlines -/

namespace Outline

/-- An outline with more entries before its first section. -/
def extend (s : Section) : Outline → Outline
  | [] => ofSection s
  | t :: more => (s ++ t) :: more

theorem extend_nil (o : Outline) : extend [] o = o := by
  cases o <;> rfl

theorem extend_cons (e : Entry) (s : Section) (o : Outline) :
    extend [e] (extend s o) = extend (e :: s) o := by
  cases o with
  | nil => cases s <;> rfl
  | cons t more => rfl

theorem attach_eq_extend {e : Entry} {o : Outline} (h : o = [] ∨ indent? o = some e.line.indent) :
    attach e o = extend [e] o := by
  rcases h with rfl | h
  · rfl
  · cases o with
    | nil => cases h
    | cons t more => exact if_pos h

/-- **Lines no shallower than the first of them make up a section**, and they
add it to what comes after them at the same indentation. -/
theorem exists_ofLines_append {i : Nat} (ls : List Line) (hdeep : ∀ l ∈ ls, i ≤ l.indent)
    (hfirst : ∀ l ∈ ls.head?, l.indent = i) :
    ∃ s, ∀ more : List Line, (∀ m ∈ more.head?, m.indent = i) →
      ofLines (ls ++ more) = extend s (ofLines more) := by
  induction hlength : ls.length using Nat.strong_induction_on generalizing ls with
  | _ n ih =>
    cases ls with
    | nil => exact ⟨[], fun more _ => (extend_nil _).symm⟩
    | cons l ls =>
      obtain rfl : l.indent = i := hfirst l rfl
      obtain ⟨under, rest, rfl, hunder, hrest⟩ := exists_deeper l.indent ls
      have hrestdeep : ∀ m ∈ rest, l.indent ≤ m.indent := fun m hm => hdeep m (by simp [hm])
      have hrestfirst : ∀ m ∈ rest.head?, m.indent = l.indent := fun m hm =>
        Nat.le_antisymm (hrest m hm) (hrestdeep m (List.mem_of_mem_head? hm))
      have hshorter : rest.length < n := by
        rw [← hlength, List.length_cons, List.length_append]
        omega
      obtain ⟨s, hs⟩ := ih rest.length hshorter rest hrestdeep hrestfirst rfl
      refine ⟨.mk l (ofLines under) :: s, fun more hmore => ?_⟩
      have hnext : ∀ m ∈ (rest ++ more).head?, m.indent = l.indent := by
        cases rest with
        | nil => exact hmore
        | cons m rest => exact hrestfirst
      have hsame : ofLines (rest ++ more) = [] ∨ indent? (ofLines (rest ++ more)) = some l.indent := by
        rw [indent?_ofLines]
        cases hafter : rest ++ more with
        | nil => exact .inl rfl
        | cons m after => exact .inr (congrArg some (hnext m (by rw [hafter]; rfl)))
      calc ofLines (l :: (under ++ rest) ++ more)
          = ofLines (l :: (under ++ (rest ++ more))) := by rw [List.cons_append, List.append_assoc]
        _ = attach (.mk l (ofLines under)) (ofLines (rest ++ more)) :=
            ofLines_entry hunder fun m hm => Nat.le_of_eq (hnext m hm)
        _ = extend [.mk l (ofLines under)] (ofLines (rest ++ more)) := attach_eq_extend hsame
        _ = extend (.mk l (ofLines under) :: s) (ofLines more) := by rw [hs more hmore, extend_cons]

end Outline

/-! ### Reading -/

/-- **A section may be read in two parts** where an entry continues no
conditional. -/
theorem readSection_append {t : Section} (ht : ∀ e ∈ t.head?, e.line.kind.continuesConditional = false) :
    ∀ (s : Section) (chain : Option Chain), readSection chain (s ++ t) =
      (readSection chain s).bind fun a => (readSection none t).map (a ++ ·)
  | [], chain => by
    rw [List.nil_append, readSection_closes ht, readSection, Option.bind_some]
  | e :: s, chain => by
    have ih := readSection_append ht s
    rw [List.cons_append, readSection_cons, readSection_cons]
    cases e.step chain e.body with
    | none => rfl
    | some st =>
      rw [Option.bind_some, Option.bind_some, ih]
      cases readSection st.2 s with
      | none => rfl
      | some a => simp only [Option.bind_some, Option.map_some, Option.map_map, Function.comp_def,
          List.append_assoc]

theorem Outline.read?_ofSection (s : Section) : (Outline.ofSection s).read? = readSection none s := by
  cases s with
  | nil => simp only [ofSection, if_true, read?, readSection, closeChain]
  | cons e s =>
    have hone : Outline.ofSection (e :: s) = [e :: s] := rfl
    rw [hone, read?_cons]
    cases readSection none (e :: s) with
    | none => rfl
    | some a => simp [readDedents]

/-- **Lines are read one list after the other** if the first list is no
shallower than its first line and the second one goes on at the indentation of
that line, with a line that continues no conditional. -/
theorem Block.ofLines?_append {a b : Line} {as bs : List Line} (ha : ∀ l ∈ as, a.indent ≤ l.indent)
    (hb : b.indent = a.indent) (hk : b.kind.continuesConditional = false) :
    Block.ofLines? (a :: as ++ b :: bs) =
      (Block.ofLines? (a :: as)).bind fun x => (Block.ofLines? (b :: bs)).map (x ++ ·) := by
  have hdeep : ∀ l ∈ a :: as, a.indent ≤ l.indent := List.forall_mem_cons.2 ⟨Nat.le_refl _, ha⟩
  obtain ⟨s, hs⟩ := Outline.exists_ofLines_append (a :: as) hdeep (by simp)
  have hfirst : Outline.ofLines (a :: as) = Outline.ofSection s := by
    have halone := hs [] (by simp)
    rwa [List.append_nil] at halone
  have hboth : Outline.ofLines (a :: as ++ b :: bs) = Outline.extend s (Outline.ofLines (b :: bs)) :=
    hs (b :: bs) (by simpa using hb)
  -- the second list starts a section with its first line
  have hhead := Outline.first?_ofLines (b :: bs)
  unfold Block.ofLines?
  rw [hboth, hfirst, Outline.read?_ofSection]
  cases hsecond : Outline.ofLines (b :: bs) with
  | nil =>
    rw [hsecond] at hhead
    cases hhead
  | cons t more =>
    rw [hsecond] at hhead
    have ht : ∀ e ∈ t.head?, e.line.kind.continuesConditional = false := by
      intro e he
      have hline : t.head?.map Entry.line = some b := hhead
      rw [Option.mem_def.1 he, Option.map_some, Option.some.injEq] at hline
      rw [hline, hk]
    rw [Outline.extend, Outline.read?_cons, Outline.read?_cons, readSection_append ht]
    cases readSection none s with
    | none => rfl
    | some x =>
      cases readSection none t with
      | none => rfl
      | some y => cases readDedents more <;> simp

/-- **An error stays where it is.** Two lists of lines of which the first is no
shallower than its first line, and the second goes on at the indentation of
that line with one that continues no conditional, are read as the blocks of the
two, one after the other. -/
theorem reading_of_joined {ls ms : List Line} {a b : Line} (hls : ∀ l ∈ ls, l.Classified)
    (hms : ∀ m ∈ ms, m.Classified) (hfirst : ls.head? = some a) (hnext : ms.head? = some b)
    (hdeep : ∀ l ∈ ls, a.indent ≤ l.indent) (hsame : b.indent = a.indent)
    (hk : b.kind.continuesConditional = false) :
    ∃ x y, Block.ofLines? ls = some x ∧ Block.ofLines? ms = some y ∧
      Block.ofLines? (ls ++ ms) = some (x ++ y) := by
  obtain ⟨as, rfl⟩ := List.head?_eq_some_iff.1 hfirst
  obtain ⟨bs, rfl⟩ := List.head?_eq_some_iff.1 hnext
  obtain ⟨x, hx⟩ := Option.isSome_iff_exists.1 (Block.isSome_ofLines hls)
  obtain ⟨y, hy⟩ := Option.isSome_iff_exists.1 (Block.isSome_ofLines hms)
  have has : ∀ l ∈ as, a.indent ≤ l.indent := fun l hl => hdeep l (List.mem_cons_of_mem a hl)
  have hboth : Block.ofLines? (a :: as ++ b :: bs) = _ := Block.ofLines?_append has hsame hk
  rw [hx, hy] at hboth
  exact ⟨x, y, hx, hy, hboth⟩

/-- A branch of no conditional, a header without its colon, lines deeper than
their block, and a header without a body. -/
def shaky : Text := "  else:\n    x = 1\n  while a\n    y = 2\n  z = 3\n      z = 4\n    z = 5\n  if b:\n"

/-- A conditional, and a line shallower than all of them. -/
def falling : Text := "  if c:\n    pass\n  elif d:\n    pass\nw = 1\n"

theorem reading_of_joined_shaky :
    (Block.ofLines? (linesOf shaky)).map (fun x => (Block.problems x).map Diagnostic.line) =
        some [1, 3, 6, 7, 8] ∧
      ∃ x y, Block.ofLines? (linesOf shaky) = some x ∧ Block.ofLines? (linesOf falling) = some y ∧
        Block.ofLines? (linesOf shaky ++ linesOf falling) = some (x ++ y) := by
  have hfirst : (linesOf shaky).head? = some ⟨"else:", 2, 1, .elseHeader⟩ := by decide +kernel
  have hnext : (linesOf falling).head? = some ⟨"if c:", 2, 1, .ifHeader⟩ := by decide +kernel
  have hdeep : ∀ l ∈ linesOf shaky, 2 ≤ l.indent := by decide +kernel
  have hclassified (source : Text) : ∀ l ∈ linesOf source, l.Classified := fun _ => kind_of_mem_linesOf
  exact ⟨by decide +kernel,
    reading_of_joined (hclassified shaky) (hclassified falling) hfirst hnext hdeep rfl rfl⟩

end Offside
