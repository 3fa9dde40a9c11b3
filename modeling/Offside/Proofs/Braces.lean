/-
# Braces and indentation

A class is written in rows that open a block, close one, do both, or do
neither (`Java.Row.Step`). Each row stands as deep as the braces before it say,
one less if it starts with a closing brace, so that the depth of a row follows
from the text alone. The rows of a statement start and end at its own depth and
never go below it (`Java.Walk`); hence the braces of a class match, nothing is
left open, and the brace of the class itself is the last one to be closed.

Nothing of this can be said of a class whose texts hold braces or line ends, or
start with spaces where a row starts with them: they have to be plain
(`Java.Class.isPlain`).

Key definitions: `Java.braceDepth`, `Java.Class.isPlain`, `Java.Walk`,
`Java.WellBraced`.
Key theorems: `Java.Statement.walk`, `Java.Walk.staysAbove`,
`Java.Walk.indented`, `Java.Class.wellBraced`.
-/
import Mathlib.Data.List.Infix
import Mathlib.Tactic.Ring
import Offside.Java.Render

namespace Offside
namespace Java

/-! ### Plain classes -/

/-- Whether a text holds no brace and no line end. -/
def isPlain (t : Text) : Bool := t.all fun c => c ≠ '\x7b' ∧ c ≠ '\x7d' ∧ c ≠ '\n'

/-- Whether a text can stand first in a row: there is something in it, and no
space at its start. -/
def startsRow (t : Text) : Bool := t.head?.any (· ≠ ' ')

mutual

/-- Whether the texts of a statement are plain, and every conditional in it has
a branch. -/
def Statement.isPlain : Statement → Bool
  | .declaration _ name value => Java.isPlain name && Java.isPlain value
  | .assignment name operator value =>
    startsRow name && Java.isPlain name && Java.isPlain operator && Java.isPlain value
  | .conditional branches otherwise => !branches.isEmpty && branchesPlain branches && elsePlain otherwise
  | .whileLoop condition body => Java.isPlain condition && bodyPlain body
  | .forLoop counter start stop step body =>
    Java.isPlain counter && Java.isPlain start && Java.isPlain stop && Java.isPlain step && bodyPlain body
  | .returned value => value.all Java.isPlain
  | .println value => Java.isPlain value
  | .call text => startsRow text && Java.isPlain text
  | .breakLoop => true
  | .continueLoop => true

/-- Whether the statements of a block are plain. -/
def bodyPlain : List Statement → Bool
  | [] => true
  | s :: ss => s.isPlain && bodyPlain ss

/-- Whether the branches of a conditional are plain. -/
def branchesPlain : List (Text × List Statement) → Bool
  | [] => true
  | (condition, body) :: more => Java.isPlain condition && bodyPlain body && branchesPlain more

/-- Whether the last branch of a conditional is plain, if it has one. -/
def elsePlain : Option (List Statement) → Bool
  | none => true
  | some body => bodyPlain body

end

/-- Whether the texts of a method are plain. -/
def Method.isPlain (m : Method) : Bool :=
  Java.isPlain m.name && m.parameters.all Java.isPlain && bodyPlain m.body

/-- Whether the texts of a class are plain. -/
def Class.isPlain (c : Class) : Bool := c.methods.all Method.isPlain && bodyPlain c.main

@[simp] theorem isPlain_nil : isPlain [] = true := rfl

@[simp] theorem isPlain_cons (c : Char) (t : Text) :
    isPlain (c :: t) = (decide (c ≠ '\x7b' ∧ c ≠ '\x7d' ∧ c ≠ '\n') && isPlain t) := rfl

@[simp] theorem isPlain_append (s t : Text) : isPlain (s ++ t) = (isPlain s && isPlain t) := List.all_append

theorem startsRow_append {s : Text} (h : startsRow s = true) (t : Text) : startsRow (s ++ t) = true := by
  cases s with
  | nil => cases h
  | cons c cs => exact h

theorem isPlain_name (type : ValueType) : isPlain type.name = true := by cases type <;> decide

theorem startsRow_name (type : ValueType) : startsRow type.name = true := by cases type <;> decide

theorem isPlain_intercalate {sep : Text} (hsep : isPlain sep = true) {ts : List Text}
    (h : ∀ t ∈ ts, isPlain t = true) : isPlain (List.intercalate sep ts) = true := by
  refine List.all_eq_true.2 fun c hc => ?_
  rcases Text.mem_of_mem_intercalate hc with hc | ⟨t, ht, hc⟩
  · exact List.all_eq_true.1 hsep c hc
  · exact List.all_eq_true.1 (h t ht) c hc

/-! ### The braces of a text -/

/-- How many braces a text opens and does not close. -/
def braceDepth (t : Text) : Int := t.count '\x7b' - t.count '\x7d'

/-- A text that never closes `k` braces more than it has opened, if `k` is
negative. -/
def StaysAbove (k : Int) (t : Text) : Prop := ∀ p, p <+: t → k ≤ braceDepth p

theorem braceDepth_append (s t : Text) : braceDepth (s ++ t) = braceDepth s + braceDepth t := by
  simp only [braceDepth, List.count_append, Nat.cast_add]
  ring

theorem isPlain_iff (t : Text) : isPlain t = true ↔ '\x7b' ∉ t ∧ '\x7d' ∉ t ∧ '\n' ∉ t := by
  simp only [isPlain, List.all_eq_true, decide_eq_true_eq]
  constructor
  · exact fun h => ⟨fun hc => (h _ hc).1 rfl, fun hc => (h _ hc).2.1 rfl, fun hc => (h _ hc).2.2 rfl⟩
  · rintro ⟨hopen, hclose, hline⟩ c hc
    exact ⟨fun h => hopen (h ▸ hc), fun h => hclose (h ▸ hc), fun h => hline (h ▸ hc)⟩

theorem braceDepth_eq_zero {t : Text} (hopen : '\x7b' ∉ t) (hclose : '\x7d' ∉ t) : braceDepth t = 0 := by
  rw [braceDepth, List.count_eq_zero_of_not_mem hopen, List.count_eq_zero_of_not_mem hclose]
  rfl

namespace StaysAbove

theorem mono {k l : Int} {t : Text} (h : StaysAbove k t) (hl : l ≤ k) : StaysAbove l t :=
  fun p hp => le_trans hl (h p hp)

theorem append {k : Int} {s t : Text} (hs : StaysAbove k s) (ht : StaysAbove (k - braceDepth s) t) :
    StaysAbove k (s ++ t) := by
  intro p hp
  rcases List.prefix_or_prefix_of_prefix hp (List.prefix_append s t) with hp' | ⟨q, rfl⟩
  · exact hs p hp'
  · have hq := ht q ((List.prefix_append_right_inj s).1 hp)
    rw [braceDepth_append]
    omega

theorem of_not_mem {t : Text} (hopen : '\x7b' ∉ t) (hclose : '\x7d' ∉ t) : StaysAbove 0 t := by
  intro p hp
  rw [braceDepth_eq_zero (fun h => hopen (hp.subset h)) fun h => hclose (hp.subset h)]

theorem nil {k : Int} (h : k ≤ 0) : StaysAbove k [] := (of_not_mem List.not_mem_nil List.not_mem_nil).mono h

theorem singleton (c : Char) {k : Int} (hk : k ≤ 0) (hc : k ≤ braceDepth [c]) : StaysAbove k [c] := by
  intro p hp
  rcases List.prefix_cons_iff.1 hp with rfl | ⟨q, rfl, hq⟩
  · exact hk
  · rw [List.prefix_nil.1 hq]
    exact hc

end StaysAbove

/-! ### Rows -/

/-- A row as it is written, without its line feed. -/
def Row.line (r : Row) : Text := List.replicate (4 * r.depth) ' ' ++ r.text

/-- What a row does to the brace depth, in front of it and after it, where it
stays in `floor` blocks. -/
inductive Row.Step (floor : Nat) : Nat → Row → Nat → Prop where
  /-- A row without a brace. -/
  | plain {d : Nat} {t : Text} (hd : floor ≤ d) (ht : isPlain t = true) (hs : startsRow t = true) :
    Step floor d ⟨d, t⟩ d
  /-- A row of nothing. -/
  | blank {d : Nat} (hd : floor ≤ d) : Step floor d ⟨0, []⟩ d
  /-- A row that opens a block. -/
  | opening {d : Nat} {t : Text} (hd : floor ≤ d) (ht : isPlain t = true) (hs : startsRow t = true) :
    Step floor d ⟨d, t ++ ['\x7b']⟩ (d + 1)
  /-- A row that closes a block. -/
  | closing {d : Nat} (hd : floor ≤ d) : Step floor (d + 1) ⟨d, ['\x7d']⟩ d
  /-- A row that closes a block and opens another one. -/
  | turning {d : Nat} {t : Text} (hd : floor ≤ d) (ht : isPlain t = true) :
    Step floor (d + 1) ⟨d, '\x7d' :: t ++ ['\x7b']⟩ (d + 1)

/-- Rows that lead from one brace depth to another and stay in `floor`
blocks. -/
inductive Walk (floor : Nat) : Nat → List Row → Nat → Prop where
  | nil {d : Nat} : Walk floor d [] d
  | cons {d e f : Nat} {r : Row} {rs : List Row} (h : r.Step floor d e) (hs : Walk floor e rs f) :
    Walk floor d (r :: rs) f

namespace Walk

variable {floor d e f : Nat} {r : Row} {rs ss : List Row}

theorem single (h : r.Step floor d e) : Walk floor d [r] e := .cons h .nil

theorem append (h : Walk floor d rs e) (hs : Walk floor e ss f) : Walk floor d (rs ++ ss) f := by
  induction h with
  | nil => exact hs
  | cons h _ ih => exact .cons h (ih hs)

end Walk

/-! ### The rows of a statement -/

section Statements

variable {floor depth : Nat}

/-- The first branch of a conditional opens its block, a further one closes
that of the branch before. -/
inductive Leads (depth : Nat) : Text → Nat → Prop where
  | first : Leads depth "" depth
  | further : Leads depth "\x7d else " (depth + 1)

theorem Row.Step.opens {t : Text} (hd : floor ≤ depth) (ht : isPlain t = true) (hs : startsRow t = true) :
    Row.Step floor depth ⟨depth, t ++ ") \x7b"⟩ (depth + 1) := by
  have htext : t ++ ") \x7b".toList = (t ++ [')', ' ']) ++ ['\x7b'] := by simp
  rw [htext]
  refine .opening hd ?_ (startsRow_append hs _)
  rw [isPlain_append, ht]
  rfl

theorem Walk.body {rs : List Row} {t : Text} (hd : floor ≤ depth) (ht : isPlain t = true)
    (hs : startsRow t = true) (h : Walk floor (depth + 1) rs (depth + 1)) :
    Walk floor depth (⟨depth, t ++ ") \x7b"⟩ :: rs ++ [⟨depth, "\x7d"⟩]) depth :=
  .cons (.opens hd ht hs) (h.append (.single (.closing hd)))

-- The recursion is that of the rows. What carries it is that the rows of a
-- block start and end at one depth.
mutual

theorem Statement.walk {floor : Nat} : ∀ (s : Statement) {depth : Nat}, s.isPlain = true → floor ≤ depth →
    Walk floor depth (s.rows depth) depth
  | .declaration type name value, depth, h, hd => by
    simp only [Statement.isPlain, Bool.and_eq_true] at h
    have htext : isPlain (type.name ++ " " ++ name ++ " = " ++ value ++ ";") = true := by
      simp [isPlain_name, h]
    have hstart : startsRow (type.name ++ " " ++ name ++ " = " ++ value ++ ";") = true := by
      simp only [List.append_assoc]
      exact startsRow_append (startsRow_name type) _
    exact .single (.plain hd htext hstart)
  | .assignment name operator value, depth, h, hd => by
    simp only [Statement.isPlain, Bool.and_eq_true] at h
    have htext : isPlain (name ++ " " ++ operator ++ " " ++ value ++ ";") = true := by
      simp [h]
    have hstart : startsRow (name ++ " " ++ operator ++ " " ++ value ++ ";") = true := by
      simp only [List.append_assoc]
      exact startsRow_append h.1.1.1 _
    exact .single (.plain hd htext hstart)
  | .conditional branches otherwise, depth, h, hd => by
    simp only [Statement.isPlain, Bool.and_eq_true, Bool.not_eq_true', List.isEmpty_eq_false_iff] at h
    obtain ⟨⟨hne, hbranches⟩, helse⟩ := h
    have hlead : Leads depth "" depth := .first
    have hfirst := walk_branches branches hlead hbranches hd
    rw [if_neg hne] at hfirst
    exact (hfirst.append (walk_else otherwise helse hd)).append (.single (.closing hd))
  | .whileLoop condition body, depth, h, hd => by
    simp only [Statement.isPlain, Bool.and_eq_true] at h
    exact .body hd (by simp [h]) rfl (walk_body body h.2 (Nat.le_succ_of_le hd))
  | .forLoop counter start stop step body, depth, h, hd => by
    simp only [Statement.isPlain, Bool.and_eq_true] at h
    exact .body hd (by simp [h]) rfl (walk_body body h.2 (Nat.le_succ_of_le hd))
  | .returned (some value), depth, h, hd => by
    have hvalue : isPlain value = true := h
    exact .single (.plain hd (by simp [hvalue]) rfl)
  | .returned none, depth, h, hd => .single (.plain hd (by decide) rfl)
  | .println value, depth, h, hd => by
    have hvalue : isPlain value = true := h
    exact .single (.plain hd (by simp [hvalue]) rfl)
  | .call text, depth, h, hd => by
    simp only [Statement.isPlain, Bool.and_eq_true] at h
    exact .single (.plain hd (by simp [h]) (startsRow_append h.1 _))
  | .breakLoop, depth, h, hd => .single (.plain hd (by decide) rfl)
  | .continueLoop, depth, h, hd => .single (.plain hd (by decide) rfl)

/-- **The rows of a block start and end at its depth, and stay there.** -/
theorem walk_body {floor : Nat} : ∀ (ss : List Statement) {depth : Nat}, bodyPlain ss = true → floor ≤ depth →
    Walk floor depth (bodyRows depth ss) depth
  | [], _, _, _ => .nil
  | s :: ss, depth, h, hd => by
    simp only [bodyPlain, Bool.and_eq_true] at h
    exact (s.walk h.1 hd).append (walk_body ss h.2 hd)

theorem walk_branches {floor : Nat} : ∀ (branches : List (Text × List Statement)) {depth d : Nat} {lead : Text},
    Leads depth lead d → branchesPlain branches = true → floor ≤ depth →
    Walk floor d (branchRows depth lead branches) (if branches = [] then d else depth + 1)
  | [], _, _, _, _, _, _ => .nil
  | (condition, body) :: more, depth, d, lead, hlead, h, hd => by
    simp only [branchesPlain, Bool.and_eq_true] at h
    obtain ⟨⟨hcondition, hbody⟩, hmore⟩ := h
    have hopen : Row.Step floor d ⟨depth, lead ++ "if (" ++ condition ++ ") \x7b"⟩ (depth + 1) := by
      cases hlead with
      | first => exact .opens hd (by simp [hcondition]) rfl
      | further =>
        have htext : "\x7d else ".toList ++ "if (" ++ condition ++ ") \x7b" =
            '\x7d' :: (" else if (" ++ condition ++ [')', ' ']) ++ ['\x7b'] := by simp
        rw [htext]
        exact .turning hd (by simp [hcondition])
    have hlead : Leads depth "\x7d else " (depth + 1) := .further
    have hrest := walk_branches more hlead hmore hd
    rw [ite_self] at hrest
    rw [if_neg (List.cons_ne_nil _ _), branchRows]
    exact .cons hopen ((walk_body body hbody (Nat.le_succ_of_le hd)).append hrest)

theorem walk_else {floor : Nat} : ∀ (otherwise : Option (List Statement)) {depth : Nat},
    elsePlain otherwise = true → floor ≤ depth →
    Walk floor (depth + 1) (elseRows depth otherwise) (depth + 1)
  | none, _, _, _ => .nil
  | some body, depth, h, hd => by
    have hopen : Row.Step floor (depth + 1) ⟨depth, "\x7d else \x7b"⟩ (depth + 1) :=
      .turning (t := " else ") hd (by decide)
    exact .cons hopen (walk_body body h (Nat.le_succ_of_le hd))

end

end Statements

/-! ### The rows of a class -/

theorem Method.walk {m : Method} (h : m.isPlain = true) : Walk 1 1 m.rows 1 := by
  simp only [Method.isPlain, Bool.and_eq_true, List.all_eq_true] at h
  obtain ⟨⟨hname, hparameters⟩, hbody⟩ := h
  have hlist : Java.isPlain (List.intercalate ", ".toList (m.parameters.map fun p => "int ".toList ++ p)) = true := by
    refine isPlain_intercalate (by decide) (List.forall_mem_map.2 fun p hp => ?_)
    rw [isPlain_append, hparameters p hp]
    rfl
  have hhead : Java.isPlain ("static ".toList ++ m.returns.name ++ " ".toList ++ m.name ++ "(".toList ++
      List.intercalate ", ".toList (m.parameters.map fun p => "int ".toList ++ p)) = true := by
    simp only [isPlain_append, isPlain_name, hname, hlist]
    rfl
  have hrows : Walk 1 1 (⟨1, "static " ++ m.returns.name ++ " " ++ m.name ++ "(" ++
      List.intercalate ", ".toList (m.parameters.map fun p => "int " ++ p) ++ ") \x7b"⟩ ::
        bodyRows 2 m.body ++ [⟨1, "\x7d"⟩]) 1 :=
    .body le_rfl hhead rfl (walk_body m.body hbody (by omega))
  have hall := hrows.append (.single (.blank le_rfl))
  rwa [List.append_assoc] at hall

/-- The rows of a class between its first row and its last one. -/
def Class.inner (c : Class) : List Row :=
  c.methods.flatMap Method.rows ++
    (⟨1, "public static void main(String[] args) \x7b"⟩ :: bodyRows 2 c.main ++ [⟨1, "\x7d"⟩])

theorem Class.rows_eq (c : Class) :
    c.rows = ⟨0, "public class Main \x7b"⟩ :: c.inner ++ [⟨0, "\x7d"⟩] := by
  simp [Class.rows, Class.inner]

/-- **Between its first row and its last one a class stays in its block.** -/
theorem Class.walk_inner {c : Class} (h : c.isPlain = true) : Walk 1 1 c.inner 1 := by
  simp only [Class.isPlain, Bool.and_eq_true, List.all_eq_true] at h
  obtain ⟨hmethods, hmain⟩ := h
  have hfirst : Walk 1 1 (c.methods.flatMap Method.rows) 1 := by
    generalize c.methods = ms at hmethods
    induction ms with
    | nil => exact .nil
    | cons m ms ih =>
      obtain ⟨hm, hms⟩ := List.forall_mem_cons.1 hmethods
      exact (Method.walk hm).append (ih hms)
  have hlast : Walk 1 1 (⟨1, "public static void main(String[] args" ++ ") \x7b"⟩ ::
      bodyRows 2 c.main ++ [⟨1, "\x7d"⟩]) 1 :=
    .body le_rfl (by decide) rfl (walk_body c.main hmain (by omega))
  exact hfirst.append hlast

/-! ### Rows as text -/

theorem isPlain_replicate (n : Nat) : isPlain (List.replicate n ' ') = true := by
  rw [isPlain_iff]
  exact ⟨fun h => absurd (List.eq_of_mem_replicate h) (by decide),
    fun h => absurd (List.eq_of_mem_replicate h) (by decide),
    fun h => absurd (List.eq_of_mem_replicate h) (by decide)⟩

theorem braceDepth_of_isPlain {t : Text} (h : isPlain t = true) : braceDepth t = 0 := by
  obtain ⟨hopen, hclose, -⟩ := (isPlain_iff t).1 h
  exact braceDepth_eq_zero hopen hclose

theorem staysAbove_of_isPlain {t : Text} (h : isPlain t = true) : StaysAbove 0 t := by
  obtain ⟨hopen, hclose, -⟩ := (isPlain_iff t).1 h
  exact .of_not_mem hopen hclose

namespace Row.Step

variable {floor d e : Nat} {r : Row}

theorem mono {k : Nat} (h : r.Step floor d e) (hk : k ≤ floor) : r.Step k d e := by
  cases h with
  | plain hd ht hs => exact .plain (by omega) ht hs
  | blank hd => exact .blank (by omega)
  | opening hd ht hs => exact .opening (by omega) ht hs
  | closing hd => exact .closing (by omega)
  | turning hd ht => exact .turning (by omega) ht

theorem floor_le (h : r.Step floor d e) : floor ≤ e := by cases h <;> omega

theorem braceDepth_text (h : r.Step floor d e) : braceDepth r.text = e - d := by
  cases h with
  | plain hd ht hs => simp [braceDepth_of_isPlain ht]
  | blank => simp [braceDepth]
  | opening hd ht hs =>
    have hopen : braceDepth ['\x7b'] = 1 := rfl
    rw [braceDepth_append, braceDepth_of_isPlain ht, hopen]
    omega
  | closing =>
    have hclose : braceDepth ['\x7d'] = -1 := rfl
    rw [hclose]
    omega
  | @turning d t hd ht =>
    have hopen : braceDepth ['\x7b'] = 1 := rfl
    have hclose : braceDepth ['\x7d'] = -1 := rfl
    have hcons : '\x7d' :: t ++ ['\x7b'] = ['\x7d'] ++ t ++ ['\x7b'] := rfl
    rw [hcons, braceDepth_append, braceDepth_append, braceDepth_of_isPlain ht, hopen, hclose]
    omega

theorem staysAbove_text (h : r.Step floor d e) : StaysAbove (floor - d) r.text := by
  have hopen : braceDepth ['\x7b'] = 1 := rfl
  have hclose : braceDepth ['\x7d'] = -1 := rfl
  cases h with
  | plain hd ht hs => exact (staysAbove_of_isPlain ht).mono (by omega)
  | blank hd => exact .nil (by omega)
  | opening hd ht hs =>
    refine ((staysAbove_of_isPlain ht).mono (by omega)).append (.singleton _ ?_ ?_)
    all_goals rw [braceDepth_of_isPlain ht]; omega
  | closing hd => exact .singleton _ (by omega) (by omega)
  | @turning d t hd ht =>
    have hcons : '\x7d' :: t ++ ['\x7b'] = ['\x7d'] ++ (t ++ ['\x7b']) := rfl
    rw [hcons]
    refine (StaysAbove.singleton _ (by omega) (by omega)).append ?_
    refine ((staysAbove_of_isPlain ht).mono (by omega)).append (.singleton _ ?_ ?_)
    all_goals rw [braceDepth_of_isPlain ht]; omega

end Row.Step

theorem Row.braceDepth_render (r : Row) : braceDepth r.render = braceDepth r.text := by
  have hspaces : braceDepth (List.replicate (4 * r.depth) ' ') = 0 := braceDepth_of_isPlain (isPlain_replicate _)
  have hline : braceDepth ['\n'] = 0 := rfl
  rw [Row.render, braceDepth_append, braceDepth_append, hspaces, hline]
  omega

theorem Row.staysAbove_render {r : Row} {k : Int} (hk : k ≤ 0) (h : StaysAbove k r.text)
    (hend : k ≤ braceDepth r.text) : StaysAbove k r.render := by
  have hspaces : braceDepth (List.replicate (4 * r.depth) ' ') = 0 := braceDepth_of_isPlain (isPlain_replicate _)
  have htext : StaysAbove k (List.replicate (4 * r.depth) ' ' ++ r.text) := by
    refine ((staysAbove_of_isPlain (isPlain_replicate _)).mono hk).append ?_
    rwa [hspaces, sub_zero]
  refine htext.append (StaysAbove.mono (.of_not_mem (by decide) (by decide)) ?_)
  rw [braceDepth_append, hspaces]
  omega

theorem Row.Step.not_mem_line {floor d e : Nat} {r : Row} (h : r.Step floor d e) : '\n' ∉ r.line := by
  have hspaces : '\n' ∉ List.replicate (4 * r.depth) ' ' := ((isPlain_iff _).1 (isPlain_replicate _)).2.2
  have htext : '\n' ∉ r.text := by
    cases h with
    | plain hd ht hs => exact ((isPlain_iff _).1 ht).2.2
    | blank => exact List.not_mem_nil
    | opening hd ht hs => simpa using ((isPlain_iff _).1 ht).2.2
    | closing => exact fun h => absurd (List.mem_singleton.1 h) (by decide)
    | turning hd ht => simpa using ((isPlain_iff _).1 ht).2.2
  rw [Row.line, List.mem_append, not_or]
  exact ⟨hspaces, htext⟩

theorem renderRows_eq (rs : List Row) : renderRows rs = (rs.map Row.line).flatMap (· ++ ['\n']) := by
  rw [List.flatMap_map]
  rfl

namespace Walk

variable {floor d e f : Nat} {r : Row} {rs ss : List Row}

theorem mono {k : Nat} (h : Walk floor d rs e) (hk : k ≤ floor) : Walk k d rs e := by
  induction h with
  | nil => exact .nil
  | cons h _ ih => exact .cons (h.mono hk) ih

/-- What the rows of a walk open and do not close is how far they lead. -/
theorem braceDepth_render (h : Walk floor d rs e) : braceDepth (renderRows rs) = e - d := by
  induction h with
  | nil => simp [renderRows, braceDepth]
  | @cons d e f r rs h _ ih =>
    rw [renderRows, List.flatMap_cons, braceDepth_append, Row.braceDepth_render, h.braceDepth_text]
    rw [renderRows] at ih
    omega

/-- **A walk never goes below its floor**, whatever part of the rows has been
written. -/
theorem staysAbove (h : Walk floor d rs e) (hd : floor ≤ d) : StaysAbove (floor - d) (renderRows rs) := by
  induction h with
  | nil => exact .nil (by omega)
  | @cons d e f r rs h _ ih =>
    have he : floor ≤ e := h.floor_le
    have hdepth := h.braceDepth_text
    have hrow : StaysAbove (floor - d) r.render :=
      Row.staysAbove_render (by omega) h.staysAbove_text (by omega)
    refine hrow.append ((ih he).mono ?_)
    rw [Row.braceDepth_render]
    omega

theorem not_mem_line (h : Walk floor d rs e) : ∀ l ∈ rs.map Row.line, '\n' ∉ l := by
  induction h with
  | nil => exact fun l hl => absurd hl List.not_mem_nil
  | cons h _ ih => exact List.forall_mem_cons.2 ⟨h.not_mem_line, ih⟩

theorem split : ∀ {rs : List Row} {d : Nat}, Walk floor d (rs ++ r :: ss) f →
    ∃ e e', Walk floor d rs e ∧ r.Step floor e e'
  | [], d, .cons h _ => ⟨d, _, .nil, h⟩
  | _ :: _, _, .cons h hs =>
    have ⟨e, e', hrs, hr⟩ := split hs
    ⟨e, e', .cons h hrs, hr⟩

/-- The lines of the text are the rows, and what is written before a line is
what the rows before it make up. -/
theorem exists_row (h : Walk floor d rs e) {before line after : Text}
    (htext : renderRows rs = before ++ line ++ '\n' :: after) (hbefore : before = [] ∨ ∃ b, before = b ++ ['\n'])
    (hline : '\n' ∉ line) :
    ∃ pre r post, rs = pre ++ r :: post ∧ before = renderRows pre ∧ line = r.line := by
  obtain ⟨lines, hlines, hpieces⟩ : ∃ lines : List Text, before = lines.flatMap (· ++ ['\n']) ∧
      ∀ rest, Text.pieces '\n' (before ++ rest) = lines ++ Text.pieces '\n' rest := by
    rcases hbefore with rfl | ⟨b, rfl⟩
    · exact ⟨[], rfl, fun _ => rfl⟩
    · refine ⟨Text.pieces '\n' b, (Text.flatMap_pieces _ b).symm, fun rest => ?_⟩
      rw [List.append_assoc, List.singleton_append, Text.pieces_append]
  have hrows : rs.map Row.line ++ [[]] = lines ++ line :: Text.pieces '\n' after := by
    rw [← Text.pieces_flatMap h.not_mem_line, ← renderRows_eq, htext, List.append_assoc, hpieces,
      Text.pieces_append, Text.pieces_of_not_mem hline, List.singleton_append]
  -- The empty piece in the end is none of the rows, so that the line is one.
  have hsome := Text.pieces_ne_nil '\n' after
  rcases List.append_eq_append_iff.1 hrows with ⟨more, -, hmore⟩ | ⟨more, hmore, hlast⟩
  · have hlength := congrArg List.length hmore
    simp only [List.length_append, List.length_cons, List.length_nil] at hlength
    exact absurd (List.length_eq_zero_iff.1 (by omega)) hsome
  · cases more with
    | nil => exact absurd (List.cons.inj hlast).2 hsome
    | cons l more =>
      obtain ⟨pre, rest, rfl, hpre, hrest⟩ := List.map_eq_append_iff.1 hmore
      obtain ⟨r, post, rfl, hr, -⟩ := List.map_eq_cons_iff.1 hrest
      refine ⟨pre, r, post, rfl, ?_, ?_⟩
      · rw [hlines, renderRows_eq, hpre]
      · rw [hr, (List.cons.inj hlast).1]

end Walk

/-! ### The text of a class -/

/-- A text whose braces match and whose lines stand as deep as its braces
say. -/
structure WellBraced (t : Text) : Prop where
  /-- No more braces are closed than have been opened, at any place. -/
  never_negative : ∀ p, p <+: t → 0 ≤ braceDepth p
  /-- In the end all of them are closed. -/
  balanced : braceDepth t = 0
  /-- From the first brace on, nothing is closed but by the last brace. -/
  closes_last : ∃ inside after, t = inside ++ '\x7d' :: after ∧ '\x7b' ∉ after ∧ '\x7d' ∉ after ∧
    ∀ p, p <+: inside → '\x7b' ∈ p → 0 < braceDepth p
  /-- Every line ends in a line feed. -/
  ends_line : ∃ lines, t = lines ++ ['\n']
  /-- A line that is not empty starts with four spaces for each brace that is
  open there, without the one that the line starts by closing. -/
  indented : ∀ before line after, t = before ++ line ++ '\n' :: after →
    (before = [] ∨ ∃ b, before = b ++ ['\n']) → '\n' ∉ line → line ≠ [] →
      ((line.takeWhile (· = ' ')).length : Int) =
        4 * (braceDepth before - if (line.dropWhile (· = ' ')).head? = some '\x7d' then 1 else 0)

theorem takeWhile_spaces (n : Nat) {t : Text} (h : startsRow t = true) :
    (List.replicate n ' ' ++ t).takeWhile (· = ' ') = List.replicate n ' ' ∧
      (List.replicate n ' ' ++ t).dropWhile (· = ' ') = t := by
  have hspaces : ∀ c ∈ List.replicate n ' ', decide (c = ' ') = true := fun c hc =>
    decide_eq_true (List.eq_of_mem_replicate hc)
  rw [List.takeWhile_append_of_pos hspaces, List.dropWhile_append_of_pos hspaces]
  cases t with
  | nil => cases h
  | cons c cs =>
    have hc : decide (c = ' ') = false := by simpa [startsRow] using h
    rw [List.takeWhile_cons, List.dropWhile_cons, hc]
    exact ⟨List.append_nil _, rfl⟩

/-- A plain text at the start of a row closes no block. -/
theorem head?_of_isPlain {t : Text} (h : isPlain t = true) (hs : startsRow t = true) (after : Text) :
    (t ++ after).head? ≠ some '\x7d' := by
  cases t with
  | nil => cases hs
  | cons c cs =>
    intro hc
    have hc' : c = '\x7d' := Option.some.inj hc
    exact ((isPlain_iff _).1 h).2.1 (hc' ▸ List.mem_cons_self)

/-- **A row stands as deep as the braces before it say.** -/
theorem Row.Step.indented {floor d e : Nat} {r : Row} (h : r.Step floor d e) (hne : r.line ≠ []) :
    ((r.line.takeWhile (· = ' ')).length : Int) =
      4 * (d - if (r.line.dropWhile (· = ' ')).head? = some '\x7d' then 1 else 0) := by
  cases h with
  | plain hd ht hs =>
    obtain ⟨htake, hdrop⟩ := takeWhile_spaces (4 * d) hs
    have hhead := head?_of_isPlain ht hs []
    rw [List.append_nil] at hhead
    rw [Row.line, htake, hdrop, if_neg hhead, List.length_replicate]
    omega
  | blank => exact absurd rfl hne
  | @opening _ t hd ht hs =>
    obtain ⟨htake, hdrop⟩ := takeWhile_spaces (4 * d) (startsRow_append hs ['\x7b'])
    rw [Row.line, htake, hdrop, if_neg (head?_of_isPlain ht hs _), List.length_replicate]
    omega
  | closing =>
    obtain ⟨htake, hdrop⟩ := takeWhile_spaces (4 * e) (t := ['\x7d']) rfl
    rw [Row.line, htake, hdrop, List.head?_cons, if_pos rfl, List.length_replicate]
    omega
  | @turning d t hd ht =>
    obtain ⟨htake, hdrop⟩ := takeWhile_spaces (4 * d) (t := '\x7d' :: t ++ ['\x7b']) rfl
    rw [Row.line, htake, hdrop, List.cons_append, List.head?_cons, if_pos rfl, List.length_replicate]
    omega

theorem Class.walk {c : Class} (h : c.isPlain = true) : Walk 0 0 c.rows 0 := by
  rw [Class.rows_eq]
  have hfirst : Row.Step 0 0 ⟨0, "public class Main \x7b"⟩ 1 :=
    .opening le_rfl (t := "public class Main ") (by decide) rfl
  exact .cons hfirst (((Class.walk_inner h).mono (Nat.zero_le 1)).append (.single (.closing le_rfl)))

/-- **The braces of a class match, and every line of it stands as deep as they
say.** -/
theorem Class.wellBraced (c : Class) (h : c.isPlain = true) : WellBraced c.render where
  never_negative p hp := by simpa using (Class.walk h).staysAbove le_rfl p hp
  balanced := (Class.walk h).braceDepth_render
  closes_last := by
    have hinner := (Class.walk_inner h).staysAbove le_rfl
    refine ⟨"public class Main \x7b\n".toList ++ renderRows c.inner, ['\n'], ?_, by decide, by decide, ?_⟩
    · rw [Class.render, Class.rows_eq, render_append, List.append_assoc]
      rfl
    · intro p hp hopen
      rcases List.prefix_or_prefix_of_prefix hp (List.prefix_append _ _) with hp' | ⟨q, rfl⟩
      · have hall : ∀ p ∈ "public class Main \x7b\n".toList.inits, '\x7b' ∈ p → 0 < braceDepth p := by decide
        exact hall p ((List.mem_inits _ _).2 hp') hopen
      · have hq := hinner q ((List.prefix_append_right_inj _).1 hp)
        have hfirst : braceDepth "public class Main \x7b\n".toList = 1 := rfl
        rw [braceDepth_append, hfirst]
        omega
  ends_line := by
    refine ⟨renderRows (⟨0, "public class Main \x7b"⟩ :: c.inner) ++ ['\x7d'], ?_⟩
    rw [Class.render, Class.rows_eq, render_append, List.append_assoc]
    rfl
  indented before line after htext hbefore hline hne := by
    obtain ⟨pre, r, post, hrows, rfl, rfl⟩ := (Class.walk h).exists_row htext hbefore hline
    obtain ⟨d, e, hpre, hr⟩ := Walk.split (hrows ▸ Class.walk h)
    have hdepth := hpre.braceDepth_render
    rw [Nat.cast_zero, sub_zero] at hdepth
    rw [hdepth]
    exact hr.indented hne

/-- A class with a method, and in it a chain of conditionals in a loop. -/
def countdown : Class where
  methods := [⟨"count", .int, ["n"],
    [.whileLoop "n > 0" [.conditional
        [("n > 9", [.println "n", .assignment "n" "-=" "10"]), ("n > 4", [.call "tick()"])]
        (some [.forLoop "i" "0" "n" "1" [.breakLoop]])],
      .returned (some "n")]⟩]
  main := [.declaration .int "rest" "count(12)"]

/-- Loops and conditionals inside one another. -/
theorem countdown_wellBraced : countdown.isPlain = true ∧ WellBraced countdown.render :=
  ⟨by decide, countdown.wellBraced (by decide)⟩

end Java
end Offside
