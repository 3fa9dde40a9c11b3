/-
# Readers that cut at places

A reader may look for the place of a mark first and then cut the text there.
The readers of this module do so: they count characters or bytes, look at the
masked text and cut the text itself. Such a reader yields nothing at all if a
cut is out of range or not between characters. None of them ever does so:
each yields what the reader that goes character by character yields.

Key definitions: `callArgumentsBySlices?`, `isCallBySlices?`,
`Collection.findBySlices?`, `splitBySlices?`, `Signature.bySlices?`.
Key theorems: the equation of each, `splitBySlices?_eq` and
`Signature.bySlices?_eq` among them.
-/
import Offside.Line.Kind
import Offside.Header
import Offside.Proofs.Slices

namespace Offside

/-! ### Calls -/

/-- The text between the parentheses that follow a name. -/
def argumentsAfter? (rest : Text) : Option Text :=
  match Text.trimStart rest with
  | '(' :: inner => Text.dropEnd? ')' inner
  | _ => none

/-- The arguments of a call, read after as many bytes as the name has. -/
def callArgumentsBySlices? (name t : Text) : Option (Option Text) :=
  if startsWithWord name t then (Text.dropBytes? name.utf8Length t).map argumentsAfter?
  else some none

/-- **The name of a call can be cut off.** -/
theorem callArgumentsBySlices?_eq (name t : Text) :
    callArgumentsBySlices? name t = some (callArguments? name t) := by
  unfold callArgumentsBySlices? startsWithWord callArguments?
  cases hname : name.isPrefixOf? t with
  | none => rfl
  | some rest =>
    have hdrop : Text.dropBytes? name.utf8Length t = some rest := by
      rw [Text.eq_of_isPrefixOf hname, Text.dropBytes?_append]
    by_cases hword : rest.head?.any isNameChar = true
    · simp [hword]
    · simp only [hword, hdrop, Bool.not_false, if_true, Bool.false_eq_true, if_false,
        Option.map_some]
      rfl

/-- Whether a text is a call: its name stands before the place of the first
parenthesis. -/
def isCallBySlices? (t : Text) : Option Bool :=
  match Text.firstAt? '(' t with
  | some opening => (Text.takeBytes? opening t).map fun name =>
    isName (Text.trimEnd name) && t.getLast? == some ')'
  | none => some false

/-- **The name before a parenthesis can be cut off.** -/
theorem isCallBySlices?_eq (t : Text) : isCallBySlices? t = some (isCall t) := by
  unfold isCallBySlices? isCall
  rw [Text.firstAt?_eq]
  cases hcut : Text.cut? "(" t with
  | none =>
    have hcut : Text.cut? ['('] t = none := hcut
    rw [hcut]
    rfl
  | some p =>
    obtain ⟨name, inner⟩ := p
    have ht : t = name ++ '(' :: inner := by simpa using Text.eq_of_cut "(" hcut
    have hcut : Text.cut? ['('] t = some (name, inner) := hcut
    have htake : Text.takeBytes? name.utf8Length t = some name :=
      Text.takeBytes?_eq_some_iff.2 ⟨'(' :: inner, ht, rfl⟩
    have hlast : (t.getLast? == some ')') = (inner.getLast? == some ')') := by
      cases inner <;> simp [ht, List.getLast?_cons]
    rw [hcut, Option.map_some]
    simp only [htake, Option.map_some, hlast]

/-! ### Collections -/

/-- Whether the masked text `masked` holds the closing bracket after the place
of the opening one. -/
def Collection.occursBySlices? (masked : Text) (k : Collection) : Option Bool :=
  match Text.firstAt? k.opener masked with
  | some start => (Text.dropBytes? start masked).map (·.contains k.closer)
  | none => some false

/-- The first kind of collection that a text holds, by places. -/
def Collection.findBySlices? (t : Text) : Option (Option Collection) :=
  [list, dictionary, tuple].findM? (occursBySlices? (mask t))

/-- **A text can be cut at the place of a bracket.** -/
theorem Collection.findBySlices?_eq (t : Text) : findBySlices? t = some (find? t) := by
  have hoccurs : ∀ k : Collection, occursBySlices? (mask t) k = some (k.occursIn (mask t)) := by
    intro k
    have hdrop := Text.dropBytes?_firstAt k.opener (mask t)
    unfold occursBySlices? occursIn
    cases hopener : Text.firstAt? k.opener (mask t) with
    | none =>
      rw [hopener, Option.elim_none, Option.some.injEq] at hdrop
      rw [← hdrop]
      rfl
    | some start =>
      rw [hopener, Option.elim_some] at hdrop
      simp only [hdrop, Option.map_some]
  have hpure : occursBySlices? (mask t) = fun k => pure (k.occursIn (mask t)) := funext hoccurs
  rw [findBySlices?, hpure, List.findM?_pure]
  rfl

/-! ### What a mask shows -/

/-- A character as the mask shows it. -/
def Quote.masked (q : Quote) (c : Char) : Char := if q.shows c then c else ' '

theorem maskFrom_cons (q : Quote) (c : Char) (cs : Text) :
    maskFrom q (c :: cs) = q.masked c :: maskFrom (q.next c) cs := rfl

theorem Quote.masked_eq_iff {q : Quote} {c mark : Char} (hspace : ' ' ≠ mark) (hquote : '"' ≠ mark) :
    q.masked c = mark ↔ q = .outside ∧ c = mark := by
  unfold masked
  cases q with
  | outside => simp [shows]
  | inside =>
    by_cases hc : c = '"'
    · simp [shows, hc, hquote]
    · simp [shows, hc, hspace]
  | escaped => simp [shows, hspace]

theorem Nesting.depth_next (n : Nesting) (c : Char) :
    bracketDepth n.depth (n.quote.masked c) = (n.next c).depth := by
  obtain ⟨q, depth⟩ := n
  cases q with
  | outside => rfl
  | inside =>
    by_cases hc : c = '"'
    · simp [Quote.masked, Quote.shows, next, hc, bracketDepth]
    · simp [Quote.masked, Quote.shows, next, hc, bracketDepth]
  | escaped => simp [Quote.masked, Quote.shows, next, bracketDepth]

theorem Nesting.atTop_and_eq_iff {n : Nesting} {c mark : Char} (hspace : ' ' ≠ mark) (hquote : '"' ≠ mark) :
    (n.atTop && c == mark) = true ↔ n.quote.masked c = mark ∧ n.depth = 0 := by
  rw [Quote.masked_eq_iff hspace hquote]
  simp [atTop, and_right_comm]

/-! ### Arguments -/

/-- The pieces of `original` between its top-level commas, from the place
`start` on. The masked characters from the place `i` on are still to be read,
and `depth` brackets are open. -/
def piecesBySlices? (original : Text) (start i depth : Nat) : Text → Option (List Text)
  | [] => (Text.slice? start original.length original).map fun piece => [Text.trim piece]
  | c :: cs =>
    if c = ',' ∧ depth = 0 then do
      let piece ← Text.slice? start i original
      let more ← piecesBySlices? original (i + 1) (i + 1) depth cs
      return Text.trim piece :: more
    else piecesBySlices? original start (i + 1) (bracketDepth depth c) cs

/-- The arguments of an argument list, cut out of it at the places of its
commas. -/
def splitBySlices? (t : Text) : Option (List Text) :=
  if Text.trim t = [] then some [] else piecesBySlices? t 0 0 0 (mask t)

theorem splitAtCommas_cons {n : Nesting} {c : Char} (h : (n.atTop && c == ',') = false) (cs : Text) :
    splitAtCommas n (c :: cs) = (splitAtCommas (n.next c) cs).modifyHead (c :: ·) := by
  rw [splitAtCommas, h]
  cases hs : splitAtCommas (n.next c) cs with
  | nil => exact absurd hs (splitAtCommas_ne_nil _ _)
  | cons piece more => rfl

/-- **Every piece lies within the text.** The reader is after `done` and what
it has read of a piece. -/
theorem piecesBySlices?_eq : ∀ (rest : Text) (n : Nesting) (done piece : Text),
    piecesBySlices? (done ++ piece ++ rest) done.length (done.length + piece.length) n.depth
        (maskFrom n.quote rest) =
      some (((splitAtCommas n rest).modifyHead (piece ++ ·)).map Text.trim)
  | [], n, done, piece => by
    have hslice : Text.slice? done.length (done ++ piece ++ []).length (done ++ piece ++ []) = some piece :=
      Text.slice?_eq_some_iff.2 ⟨done, [], rfl, rfl, by simp⟩
    rw [maskFrom, piecesBySlices?, hslice]
    simp [splitAtCommas]
  | c :: cs, n, done, piece => by
    rw [maskFrom_cons, piecesBySlices?]
    by_cases hcomma : (n.atTop && c == ',') = true
    · rw [if_pos ((Nesting.atTop_and_eq_iff (by decide) (by decide)).1 hcomma)]
      obtain ⟨⟨hquote, hdepth⟩, rfl⟩ : (n.quote = .outside ∧ n.depth = 0) ∧ c = ',' := by
        simpa [Nesting.atTop] using hcomma
      have hnext : n.quote.next ',' = n.quote := by rw [hquote]; rfl
      have hslice : Text.slice? done.length (done.length + piece.length) (done ++ piece ++ ',' :: cs) =
          some piece := Text.slice?_eq_some_iff.2 ⟨done, ',' :: cs, rfl, rfl, rfl⟩
      have hrest : done ++ piece ++ ',' :: cs = (done ++ piece ++ [',']) ++ [] ++ cs := by simp
      have hplace : done.length + piece.length + 1 = (done ++ piece ++ [',']).length := by
        simp [Nat.add_assoc]
      have ih := piecesBySlices?_eq cs n (done ++ piece ++ [',']) []
      rw [List.length_nil, Nat.add_zero] at ih
      rw [hslice, hnext, hplace, hrest, ih, splitAtCommas, hcomma]
      cases splitAtCommas n cs <;> simp
    · have hshown := mt (Nesting.atTop_and_eq_iff (by decide) (by decide)).2 hcomma
      have ih := piecesBySlices?_eq cs (n.next c) done (piece ++ [c])
      have hrest : done ++ piece ++ c :: cs = done ++ (piece ++ [c]) ++ cs := by simp
      have hplace : done.length + piece.length + 1 = done.length + (piece ++ [c]).length := by
        simp [Nat.add_assoc]
      rw [if_neg hshown, Nesting.depth_next, hrest, hplace]
      refine ih.trans ?_
      rw [splitAtCommas_cons (by simpa using hcomma), List.modifyHead_modifyHead]
      congr 4
      funext p
      simp

/-- **Every argument lies within its list.** -/
theorem splitBySlices?_eq (t : Text) : splitBySlices? t = some (splitArguments t) := by
  unfold splitBySlices? splitArguments
  by_cases hblank : Text.trim t = []
  · rw [if_pos hblank, if_pos hblank]
  · have hpieces := piecesBySlices?_eq t {} [] []
    rw [if_neg hblank, if_neg hblank]
    refine hpieces.trans ?_
    cases splitAtCommas {} t <;> rfl

/-! ### Definitions -/

/-- The signature of a definition, cut out of it at the places of its
parentheses. -/
def Signature.bySlices? (t : Text) : Option (Option Signature) :=
  match "def".toList.isPrefixOf? t with
  | none => some none
  | some rest =>
    match Text.firstAt? '(' rest with
    | none => some none
    | some opening =>
      match (Text.lastAt? ')' rest).filter (opening < ·) with
      | none => some none
      | some closing => do
        let closed ← Text.dropBytes? (closing + 1) rest
        let name ← Text.takeBytes? opening rest
        let inner ← Text.sliceBytes? (opening + 1) closing rest
        let parameters ← splitBySlices? inner
        if Text.trim closed = [':'] ∧ isName (Text.trim name) = true ∧ parameters.all isName = true then
          return some ⟨Text.trim name, parameters⟩
        else return none

theorem lastAt?_opened (name opened : Text) :
    (Text.lastAt? ')' (name ++ '(' :: opened)).filter (name.utf8Length < ·) =
      (Text.cutLast? ')' opened).map fun p => name.utf8Length + (1 + p.1.utf8Length) := by
  have hone : Char.utf8Size '(' = 1 := by decide
  rw [Text.lastAt?_append, Text.lastAt?, Text.lastAt?_eq ')' opened]
  cases hcut : Text.cutLast? ')' opened with
  | some p =>
    have hlater : name.utf8Length < name.utf8Length + (1 + p.1.utf8Length) := by omega
    simp [hone, hlater]
  | none =>
    -- a parenthesis before the opening one does not count
    have hbefore : (Text.lastAt? ')' name).filter (name.utf8Length < ·) = none := by
      rw [Option.filter_eq_none_iff]
      intro n hn
      have := Text.lt_of_lastAt hn
      simp only [decide_eq_true_eq]
      omega
    simpa using hbefore

/-- **The parts of a definition can be cut out.** -/
theorem Signature.bySlices?_eq (t : Text) : bySlices? t = some (ofText? t) := by
  unfold bySlices? ofText?
  cases hkeyword : "def".toList.isPrefixOf? t with
  | none => rfl
  | some rest =>
    simp only [Option.bind_eq_bind, Option.bind_some]
    unfold ofHeader?
    rw [Text.firstAt?_eq]
    cases hcut : Text.cut? ['('] rest with
    | none =>
      have hcut : Text.cut? "(" rest = none := hcut
      rw [hcut]
      rfl
    | some p =>
      obtain ⟨name, opened⟩ := p
      have hopened : rest = name ++ '(' :: opened := by simpa using Text.eq_of_cut _ hcut
      have hcut : Text.cut? "(" rest = some (name, opened) := hcut
      have hlast := lastAt?_opened name opened
      rw [← hopened] at hlast
      rw [hcut, Option.map_some]
      simp only [hlast, Option.bind_eq_bind, Option.bind_some]
      cases hclose : Text.cutLast? ')' opened with
      | none => rfl
      | some p =>
        obtain ⟨inner, closed⟩ := p
        have hrest : rest = name ++ '(' :: (inner ++ ')' :: closed) := by
          rw [hopened, ← (Text.eq_of_cutLast ')' hclose).1]
        have hone : Char.utf8Size '(' = 1 ∧ Char.utf8Size ')' = 1 := by decide
        have hdrop : Text.dropBytes? (name.utf8Length + (1 + inner.utf8Length) + 1) rest = some closed := by
          refine Text.dropBytes?_eq_some_iff.2 ⟨name ++ '(' :: (inner ++ [')']), by simp [hrest], ?_⟩
          simp only [Text.utf8Length_append, Text.utf8Length, hone]
          omega
        have htake : Text.takeBytes? name.utf8Length rest = some name :=
          Text.takeBytes?_eq_some_iff.2 ⟨_, hrest, rfl⟩
        have hslice : Text.sliceBytes? (name.utf8Length + 1) (name.utf8Length + (1 + inner.utf8Length)) rest =
            some inner := by
          refine Text.sliceBytes?_eq_some_iff.2 ⟨name ++ ['('], ')' :: closed, by simp [hrest], ?_, ?_⟩
          · simp only [Text.utf8Length_append, Text.utf8Length, hone]
          · simp only [Text.utf8Length_append, Text.utf8Length, hone]
            omega
        simp only [Option.map_some, hdrop, htake, hslice, splitBySlices?_eq, Option.bind_some]
        split <;> rfl

end Offside
