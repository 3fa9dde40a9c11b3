/-
# Assignments cut at their equals sign

A scan of the masked text looks for the equals sign and cuts the text itself
there. It goes by places: it looks one place ahead for a pair of equals signs,
and one and two places back for the operator before one. It yields nothing at
all if a place or a cut is out of range, and it yields what the reader yields
that goes character by character.

Key definitions: `Assignment.scanBySlices?`, `Assignment.bySlices?`.
Key theorems: `Assignment.scanBySlices?_cons`, `Assignment.induction_find?`,
`Assignment.scanBySlices?_eq`, `Assignment.bySlices?_eq`.
-/
import Offside.Assignment
import Offside.Proofs.Cutting

namespace Offside

/-! ### What shows outside the literals -/

theorem Quote.masked_of_next {q : Quote} {c : Char} (h : q.next c = .outside) : q.masked c = c := by
  unfold masked
  cases q with
  | outside => rfl
  | inside =>
    by_cases hc : c = '"'
    · simp [shows, hc]
    · by_cases hb : c = '\\' <;> simp [next, hc, hb] at h
  | escaped => simp [next] at h

theorem Quote.eq_outside_of_next {q : Quote} {c : Char} (hc : c ≠ '"') (h : q.next c = .outside) :
    q = .outside := by
  cases q with
  | outside => rfl
  | inside => by_cases hb : c = '\\' <;> simp [next, hc, hb] at h
  | escaped => simp [next] at h

namespace Assignment

/-- The assignment whose target ends at the place `stop` and whose equals sign
is at the place `i`. -/
def sidesBySlices? (original : Text) (stop : Nat) (operator : Option Char) (i : Nat) :
    Option (Option Assignment) := do
  let target ← Text.slice? 0 stop original
  let value ← Text.slice? (i + 1) original.length original
  return some ⟨Text.trim target, operator, Text.trim value⟩

/-- The assignment in `original`, looked for in the masked text from the place
`i` on, before which `depth` brackets are open. -/
def scanBySlices? (masked original : Text) (i depth : Nat) : Option (Option Assignment) :=
  if i < masked.length then do
    let c ← masked[i]?
    if c = '=' ∧ depth = 0 then
      if masked[i + 1]? = some '=' then scanBySlices? masked original (i + 2) depth
      else
        match if 0 < i then masked[i - 1]? else none with
        | none => sidesBySlices? original i none i
        | some op =>
          if op = '!' ∨ op = '<' ∨ op = '>' then scanBySlices? masked original (i + 1) depth
          else if operators.contains op then
            let double := (op = '*' ∨ op = '/') ∧ (if 1 < i then masked[i - 2]? else none) = some op
            if double then some none else sidesBySlices? original (i - 1) (some op) i
          else sidesBySlices? original i none i
    else scanBySlices? masked original (i + 1) (bracketDepth depth c)
  else some none
termination_by masked.length - i

/-- The assignment that a line makes, cut out of it at the place of its equals
sign. -/
def bySlices? (t : Text) : Option (Option Assignment) := scanBySlices? (mask t) t 0 0

theorem scanBySlices?_cons (shown : Text) (m : Char) (rest original : Text) (depth : Nat) :
    scanBySlices? (shown.reverse ++ m :: rest) original shown.length depth =
      if m = '=' ∧ depth = 0 then
        if rest.head? = some '=' then
          scanBySlices? (shown.reverse ++ m :: rest) original (shown.length + 2) depth
        else
          match shown with
          | [] => sidesBySlices? original 0 none 0
          | op :: more =>
            if op = '!' ∨ op = '<' ∨ op = '>' then
              scanBySlices? (shown.reverse ++ m :: rest) original (shown.length + 1) depth
            else if operators.contains op then
              if (op = '*' ∨ op = '/') ∧ more.head? = some op then some none
              else sidesBySlices? original more.length (some op) shown.length
            else sidesBySlices? original shown.length none shown.length
      else scanBySlices? (shown.reverse ++ m :: rest) original (shown.length + 1) (bracketDepth depth m) := by
  have hlt : shown.length < (shown.reverse ++ m :: rest).length := by simp
  have hat : (shown.reverse ++ m :: rest)[shown.length]? = some m := by
    simp
  have hafter : (shown.reverse ++ m :: rest)[shown.length + 1]? = rest.head? := by
    simp [List.getElem?_append_right, List.head?_eq_getElem?]
  rw [scanBySlices?, if_pos hlt, hat, hafter]
  simp only [Option.bind_eq_bind, Option.bind_some]
  cases shown with
  | nil => rfl
  | cons op more =>
    have hbefore : ((op :: more).reverse ++ m :: rest)[(op :: more).length - 1]? = some op := by
      simp
    have htwice : (if 1 < (op :: more).length then
        ((op :: more).reverse ++ m :: rest)[(op :: more).length - 2]? else none) = more.head? := by
      cases more with
      | nil => rfl
      | cons p more => simp
    have hpos : 0 < (op :: more).length := Nat.succ_pos _
    rw [if_pos hpos, hbefore, htwice]
    rfl

/-- What the mask shows of the characters before a place, nearest first. -/
def shown (before : Text) : Text := (mask before.reverse).reverse

theorem length_shown (before : Text) : (shown before).length = before.length := by
  rw [shown, List.length_reverse, mask, maskFrom_length, List.length_reverse]

theorem shown_cons (c : Char) (before : Text) :
    shown (c :: before) = (Quote.after .outside before.reverse).masked c :: shown before := by
  rw [shown, List.reverse_cons, mask, maskFrom_append, List.reverse_append]
  rfl

theorem mask_reverse_append (before rest : Text) : mask (before.reverse ++ rest) =
    (shown before).reverse ++ maskFrom (Quote.after .outside before.reverse) rest := by
  rw [shown, List.reverse_reverse, mask, maskFrom_append]
  rfl

/-- Outside the literals the mask shows the character before. -/
theorem head?_shown {before : Text} (h : Quote.after .outside before.reverse = .outside) :
    (shown before).head? = before.head? := by
  cases before with
  | nil => rfl
  | cons c before =>
    rw [List.reverse_cons, Quote.after_append] at h
    rw [shown_cons, Quote.masked_of_next h]
    rfl

/-- The sides of an assignment are what stands before the operator `mid` and
after the equals sign. -/
theorem sidesBySlices?_eq (target mid rest : Text) (c : Char) (operator : Option Char) :
    sidesBySlices? (target ++ mid ++ c :: rest) target.length operator (target ++ mid).length =
      some (some ⟨Text.trim target, operator, Text.trim rest⟩) := by
  have htarget : Text.slice? 0 target.length (target ++ mid ++ c :: rest) = some target :=
    Text.slice?_eq_some_iff.2 ⟨[], mid ++ c :: rest, by simp, rfl, by simp⟩
  have hvalue : Text.slice? ((target ++ mid).length + 1) (target ++ mid ++ c :: rest).length
      (target ++ mid ++ c :: rest) = some rest :=
    Text.slice?_eq_some_iff.2 ⟨target ++ mid ++ [c], [], by simp, by simp [Nat.add_assoc], by
      simp
      omega⟩
  rw [sidesBySlices?, htarget, hvalue]
  rfl

section Scan

variable {n : Nesting} {before rest : Text} {c : Char}

theorem quote_next (hn : n.quote = Quote.after .outside before.reverse) (c : Char) :
    (n.next c).quote = Quote.after .outside (c :: before).reverse := by
  rw [List.reverse_cons, Quote.after_append, ← hn]
  rfl

theorem scanBySlices?_skip (hn : n.quote = Quote.after .outside before.reverse)
    (hc : ¬ (n.atTop && c == '=') = true) (original : Text) :
    scanBySlices? (mask (before.reverse ++ c :: rest)) original before.length n.depth =
      scanBySlices? (mask ((c :: before).reverse ++ rest)) original (c :: before).length
        (n.next c).depth := by
  have hshown := mt (Nesting.atTop_and_eq_iff (by decide) (by decide)).2 hc
  have hsame : (c :: before).reverse ++ rest = before.reverse ++ c :: rest := by simp
  rw [hsame, mask_reverse_append, ← hn, maskFrom_cons, ← length_shown before, scanBySlices?_cons,
    if_neg hshown, Nesting.depth_next, length_shown, List.length_cons]

/-- Where the scan is in no literal, the mask shows what comes next. -/
theorem head?_maskFrom_outside (rest : Text) : (maskFrom .outside rest).head? = rest.head? := by
  cases rest <;> rfl

theorem mask_equals (hn : Quote.after .outside before.reverse = .outside) (rest : Text) :
    mask (before.reverse ++ '=' :: rest) = (shown before).reverse ++ '=' :: maskFrom .outside rest := by
  rw [mask_reverse_append, hn]
  rfl

theorem scanBySlices?_pair (hn : n.quote = Quote.after .outside before.reverse)
    (htop : n.atTop = true) (original : Text) :
    scanBySlices? (mask (before.reverse ++ '=' :: '=' :: rest)) original before.length n.depth =
      scanBySlices? (mask (before.reverse ++ '=' :: '=' :: rest)) original (before.length + 2) n.depth := by
  obtain ⟨hquote, hdepth⟩ : n.quote = .outside ∧ n.depth = 0 := by simpa [Nesting.atTop] using htop
  have hscan := scanBySlices?_cons (shown before) '=' (maskFrom .outside ('=' :: rest)) original n.depth
  rw [← mask_equals (hn.symm.trans hquote), if_pos ⟨rfl, hdepth⟩, head?_maskFrom_outside, List.head?_cons,
    if_pos rfl, length_shown] at hscan
  exact hscan

theorem scanBySlices?_top (hn : n.quote = Quote.after .outside before.reverse)
    (htop : (n.atTop && c == '=') = true) (hpair : rest.head? ≠ some '=') :
    scanBySlices? (mask (before.reverse ++ c :: rest)) (before.reverse ++ c :: rest) before.length n.depth =
      match before with
      | [] => some (some ⟨[], none, Text.trim rest⟩)
      | op :: target =>
        if op = '!' ∨ op = '<' ∨ op = '>' then
          scanBySlices? (mask (before.reverse ++ c :: rest)) (before.reverse ++ c :: rest)
            (before.length + 1) n.depth
        else if operators.contains op then
          if (op = '*' ∨ op = '/') ∧ target.head? = some op then some none
          else some (some ⟨Text.trim target.reverse, some op, Text.trim rest⟩)
        else some (some ⟨Text.trim before.reverse, none, Text.trim rest⟩) := by
  obtain ⟨⟨hquote, hdepth⟩, rfl⟩ : (n.quote = .outside ∧ n.depth = 0) ∧ c = '=' := by
    simpa [Nesting.atTop] using htop
  rw [hquote] at hn
  have hscan := scanBySlices?_cons (shown before) '=' (maskFrom .outside rest)
    (before.reverse ++ '=' :: rest) n.depth
  rw [← mask_equals hn.symm, if_pos ⟨rfl, hdepth⟩, head?_maskFrom_outside, if_neg hpair,
    length_shown] at hscan
  rw [hscan]
  cases before with
  | nil =>
    exact sidesBySlices?_eq [] [] rest '=' none
  | cons op target =>
    rw [List.reverse_cons, Quote.after_append] at hn
    rw [shown_cons, Quote.masked_of_next hn.symm]
    by_cases hcompare : op = '!' ∨ op = '<' ∨ op = '>'
    · simp only [if_pos hcompare]
    · by_cases hcontains : operators.contains op = true
      · -- an operator is no quote, so the character before it shows too
        have htwice : (op = '*' ∨ op = '/') → (shown target).head? = target.head? := by
          intro hop
          have hquote : op ≠ '"' := by rcases hop with rfl | rfl <;> decide
          exact head?_shown (Quote.eq_outside_of_next hquote hn.symm)
        have hsides := sidesBySlices?_eq target.reverse [op] rest '=' (some op)
        rw [← List.reverse_cons, List.length_reverse, List.length_reverse] at hsides
        simp only [if_neg hcompare, if_pos hcontains, length_shown, hsides]
        by_cases hop : op = '*' ∨ op = '/'
        · simp only [htwice hop]
        · simp only [hop, false_and]
      · have hsides := sidesBySlices?_eq (op :: target).reverse [] rest '=' none
        rw [List.append_nil, List.length_reverse] at hsides
        simp only [if_neg hcompare, if_neg hcontains, hsides]

theorem depth_next_equals (n : Nesting) : (n.next '=').depth = n.depth := by
  unfold Nesting.next
  split <;> rfl

theorem atTop_next_equals (n : Nesting) : (n.next '=').atTop = n.atTop := by
  obtain ⟨q, depth⟩ := n
  cases q <;> rfl

theorem head?_ne_of_top (htop : (n.atTop && c == '=') = true)
    (hpair : ∀ more, c = '=' → rest = '=' :: more → False) : rest.head? ≠ some '=' := by
  intro hhead
  cases rest with
  | nil => cases hhead
  | cons d more =>
    cases hhead
    rw [Bool.and_eq_true, beq_iff_eq] at htop
    exact hpair more htop.2 rfl

end Scan

/-- Whether the reader stands before a top-level equals sign that is the first
of no pair. -/
structure AtSign (n : Nesting) (c : Char) (rest : Text) : Prop where
  top : (n.atTop && c == '=') = true
  single : rest.head? ≠ some '='

/-- **The branches of the reader of assignments**: the end of the text, a pair
of equals signs, and a top-level sign that is no pair's, by what stands before
it: nothing, the rest of a comparison, a doubled operator, an operator, or
anything else. Every other character is passed over. -/
theorem induction_find? {P : Nesting → Text → Text → Prop}
    (finish : ∀ (n : Nesting) (before : Text), find? n before [] = none → P n before [])
    (pair : ∀ (n : Nesting) (before rest : Text),
      find? n before ('=' :: '=' :: rest) = find? ((n.next '=').next '=') ('=' :: '=' :: before) rest →
      P ((n.next '=').next '=') ('=' :: '=' :: before) rest → P n before ('=' :: '=' :: rest))
    (start : ∀ (n : Nesting) (c : Char) (rest : Text), AtSign n c rest →
      find? n [] (c :: rest) = some ⟨[], none, Text.trim rest⟩ → P n [] (c :: rest))
    (comparison : ∀ (n : Nesting) (op c : Char) (target rest : Text), AtSign n c rest →
      (op = '!' ∨ op = '<' ∨ op = '>') →
      find? n (op :: target) (c :: rest) = find? n (c :: op :: target) rest →
      P n (c :: op :: target) rest → P n (op :: target) (c :: rest))
    (doubled : ∀ (n : Nesting) (op c : Char) (target rest : Text), AtSign n c rest →
      ¬ (op = '!' ∨ op = '<' ∨ op = '>') → op ∈ operators →
      ((op = '*' ∨ op = '/') ∧ target.head? = some op) →
      find? n (op :: target) (c :: rest) = none → P n (op :: target) (c :: rest))
    (update : ∀ (n : Nesting) (op c : Char) (target rest : Text), AtSign n c rest →
      ¬ (op = '!' ∨ op = '<' ∨ op = '>') → op ∈ operators →
      ¬ ((op = '*' ∨ op = '/') ∧ target.head? = some op) →
      find? n (op :: target) (c :: rest) = some ⟨Text.trim target.reverse, some op, Text.trim rest⟩ →
      P n (op :: target) (c :: rest))
    (plain : ∀ (n : Nesting) (op c : Char) (target rest : Text), AtSign n c rest →
      ¬ (op = '!' ∨ op = '<' ∨ op = '>') → op ∉ operators →
      find? n (op :: target) (c :: rest) = some ⟨Text.trim (op :: target).reverse, none, Text.trim rest⟩ →
      P n (op :: target) (c :: rest))
    (pass : ∀ (n : Nesting) (c : Char) (before rest : Text), ¬ (n.atTop && c == '=') = true →
      (c = '=' → rest.head? ≠ some '=') →
      find? n before (c :: rest) = find? (n.next c) (c :: before) rest →
      P (n.next c) (c :: before) rest → P n before (c :: rest))
    (n : Nesting) (before rest : Text) : P n before rest := by
  induction n, before, rest using find?.induct with
  | case1 n before => exact finish n before rfl
  | case2 n before rest ih => exact pair n before rest rfl ih
  | case3 n c rest hpair htop =>
    exact start n c rest ⟨htop, head?_ne_of_top htop hpair⟩ (by rw [find?, if_pos htop]; exact hpair)
  | case4 n c rest hpair htop op target hop ih =>
    exact comparison n op c target rest ⟨htop, head?_ne_of_top htop hpair⟩ hop
      (by rw [find?, if_pos htop, if_pos hop]; exact hpair) ih
  | case5 n c rest hpair htop op target hop hcontains hdouble =>
    exact doubled n op c target rest ⟨htop, head?_ne_of_top htop hpair⟩ hop (List.contains_iff_mem.1 hcontains) hdouble
      (by rw [find?, if_pos htop, if_neg hop, if_pos hcontains, if_pos hdouble]; exact hpair)
  | case6 n c rest hpair htop op target hop hcontains hdouble =>
    exact update n op c target rest ⟨htop, head?_ne_of_top htop hpair⟩ hop (List.contains_iff_mem.1 hcontains) hdouble
      (by rw [find?, if_pos htop, if_neg hop, if_pos hcontains, if_neg hdouble]; exact hpair)
  | case7 n c rest hpair htop op target hop hcontains =>
    exact plain n op c target rest ⟨htop, head?_ne_of_top htop hpair⟩ hop (mt List.contains_iff_mem.2 hcontains)
      (by rw [find?, if_pos htop, if_neg hop, if_neg hcontains]; exact hpair)
  | case8 n before c rest hpair htop ih =>
    have hfind : find? n before (c :: rest) = find? (n.next c) (c :: before) rest := by
      cases before <;> (rw [find?, if_neg htop]; exact hpair)
    refine pass n c before rest htop (fun hc hhead => ?_) hfind ih
    cases rest with
    | nil => cases hhead
    | cons d more =>
      cases hhead
      exact hpair more hc rfl

/-- **Both sides of an assignment lie within the text.** The reader is at `n`
after the characters `before`, nearest first. -/
theorem scanBySlices?_eq (n : Nesting) (before rest : Text)
    (hn : n.quote = Quote.after .outside before.reverse) :
    scanBySlices? (mask (before.reverse ++ rest)) (before.reverse ++ rest) before.length n.depth =
      some (find? n before rest) := by
  induction n, before, rest using induction_find? with
  | finish n before hfind =>
    have hend : ¬ before.length < (mask (before.reverse ++ [])).length := by simp [mask, maskFrom_length]
    rw [scanBySlices?, if_neg hend, hfind]
  | pair n before rest hfind ih =>
    have ih := ih (quote_next (quote_next hn '=') '=')
    have hsame : ('=' :: '=' :: before).reverse ++ rest = before.reverse ++ '=' :: '=' :: rest := by simp
    rw [hfind, ← ih, hsame, depth_next_equals, depth_next_equals]
    by_cases htop : n.atTop = true
    · exact scanBySlices?_pair hn htop _
    · have hfirst : ¬ (n.atTop && '=' == '=') = true := by simpa using htop
      have hsecond : ¬ ((n.next '=').atTop && '=' == '=') = true := by
        rw [atTop_next_equals]
        exact hfirst
      rw [scanBySlices?_skip hn hfirst, scanBySlices?_skip (quote_next hn '=') hsecond, hsame, depth_next_equals,
        depth_next_equals]
  | start n c rest hsign hfind => rw [hfind, scanBySlices?_top hn hsign.top hsign.single]
  | comparison n op c target rest hsign hop hfind ih =>
    have hnext : n.quote = Quote.after .outside (c :: op :: target).reverse := by
      rw [← quote_next hn c]
      obtain ⟨⟨hquote, -⟩, rfl⟩ : (n.quote = .outside ∧ n.depth = 0) ∧ c = '=' := by
        simpa [Nesting.atTop] using hsign.top
      rw [Nesting.next, hquote]
      rfl
    have hsame : (c :: op :: target).reverse ++ rest = (op :: target).reverse ++ c :: rest := by simp
    have ih := ih hnext
    rw [hsame] at ih
    rw [hfind, scanBySlices?_top hn hsign.top hsign.single]
    simp only [if_pos hop]
    exact ih
  | doubled n op c target rest hsign hop hcontains hdouble hfind =>
    rw [hfind, scanBySlices?_top hn hsign.top hsign.single]
    simp only [if_neg hop, if_pos (List.contains_iff_mem.2 hcontains), if_pos hdouble]
  | update n op c target rest hsign hop hcontains hdouble hfind =>
    rw [hfind, scanBySlices?_top hn hsign.top hsign.single]
    simp only [if_neg hop, if_pos (List.contains_iff_mem.2 hcontains), if_neg hdouble]
  | plain n op c target rest hsign hop hcontains hfind =>
    rw [hfind, scanBySlices?_top hn hsign.top hsign.single]
    simp only [if_neg hop, if_neg (mt List.contains_iff_mem.1 hcontains)]
  | pass n c before rest hlow _ hfind ih =>
    have ih := ih (quote_next hn c)
    have hsame : (c :: before).reverse ++ rest = before.reverse ++ c :: rest := by simp
    rw [hfind, scanBySlices?_skip hn hlow, ← ih, hsame]

/-- **Both sides of an assignment can be cut out.** -/
theorem bySlices?_eq (t : Text) : bySlices? t = some (ofText? t) := scanBySlices?_eq {} [] t rfl

end Assignment
end Offside
