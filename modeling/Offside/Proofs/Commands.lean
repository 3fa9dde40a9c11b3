/-
# Commands write all or nothing

Nothing is known of a host but that a read yields all that is at a place or
nothing, and that a write to a file replaces what is in it or fails without
effect (`Host.Lawful`). Whatever reads and writes such a host refuses, a
command either fails and leaves everything as it was, or writes one text to one
place; everything that it does before that write leaves files and output as
they were (`Options.execute_run`, `Host.WritesOnce`).

Key definitions: `View`, `Host.Lawful`, `Host.WritesOnce`,
`Options.AllOrNothing`.
Key theorems: `Desk.lawful_host`, `Options.execute_run`,
`Options.writesOnce_of_respond`, `Registry.exists_standard_convert`,
`writes_all_or_nothing`.
-/
import Offside.Command.Run
import Offside.Proofs.Invocations
import Offside.Proofs.Requests
import Offside.Proofs.Safety

namespace Offside

/-! ### Hosts -/

/-- The files and standard streams that the states of a host stand for. -/
structure View (σ φ : Type) where
  /-- The file that a path stands for. Several paths may stand for one file. -/
  file : Text → φ
  /-- The bytes in a file, if there is one. -/
  contents : σ → φ → Option ByteArray
  /-- The bytes of standard input. -/
  input : σ → ByteArray
  /-- What has come out on standard output. Text that has been handed to a
  buffered standard output counts as come out. -/
  output : σ → Text

namespace View

variable {σ φ : Type} (v : View σ φ)

/-- The bytes at a place. -/
def bytes? (s : σ) : Option Text → Option ByteArray
  | some path => v.contents s (v.file path)
  | none => some (v.input s)

/-- The text at a place, if there is one. -/
def text? (s : σ) (place : Option Text) : Option Text := (v.bytes? s place).bind Options.decode?

/-- No file has changed, and nothing has come out. -/
structure Same (s s' : σ) : Prop where
  contents : v.contents s' = v.contents s
  output : v.output s' = v.output s

/-- A text has been written to a place, and nothing else has changed. -/
def Wrote (s s' : σ) (t : Text) : Option Text → Prop
  | some path => v.contents s' (v.file path) = some t.bytes ∧
      (∀ f, f ≠ v.file path → v.contents s' f = v.contents s f) ∧ v.output s' = v.output s
  | none => v.contents s' = v.contents s ∧ v.output s' = v.output s ++ t

/-- A write to a place has failed. Part of it may have come out on standard
output, if it went there. -/
def Failed (s s' : σ) : Option Text → Prop
  | some _ => v.Same s s'
  | none => v.contents s' = v.contents s

variable {v}

theorem Same.refl (s : σ) : v.Same s s := ⟨rfl, rfl⟩

theorem Same.trans {s s' s'' : σ} (h : v.Same s s') (h' : v.Same s' s'') : v.Same s s'' :=
  ⟨h'.contents.trans h.contents, h'.output.trans h.output⟩

theorem Same.wrote {s s' s'' : σ} (h : v.Same s s') {t : Text} : ∀ {place : Option Text},
    v.Wrote s' s'' t place → v.Wrote s s'' t place
  | some _, ⟨hfile, hothers, houtput⟩ =>
    ⟨hfile, fun f hf => (hothers f hf).trans (congrFun h.contents f), houtput.trans h.output⟩
  | none, ⟨hcontents, houtput⟩ => ⟨hcontents.trans h.contents, h.output ▸ houtput⟩

theorem Same.failed {s s' s'' : σ} (h : v.Same s s') : ∀ {place : Option Text},
    v.Failed s' s'' place → v.Failed s s'' place
  | some _, h' => h.trans h'
  | none, h' => Eq.trans h' h.contents

end View

namespace Host

variable {σ φ : Type}

/-- A host that may refuse to read and to write, and else does as it is
asked. -/
structure Lawful (host : Host (StateM σ)) (v : View σ φ) : Prop where
  /-- What is read is all there is at a place. -/
  read : ∀ place s, ((host.read place).run s).1 = none ∨ ((host.read place).run s).1 = v.bytes? s place
  read_same : ∀ place s, v.Same s ((host.read place).run s).2
  log_same : ∀ rs s, v.Same s ((host.log rs).run s).2
  /-- A write goes well and replaces what is in the file, or fails without
  effect. On standard output it goes well once a buffer has taken the text. -/
  write : ∀ place t s, ((host.write place t).run s).1 = true →
    v.Wrote s ((host.write place t).run s).2 t place
  write_fails : ∀ place t s, ((host.write place t).run s).1 = false →
    v.Failed s ((host.write place t).run s).2 place

/-- A command that ends in `result` has written once, the text `t` to a place.
Before it wrote nothing had changed. If the write goes well nothing else
changes, and the status is `status`; if not, the status is 1. -/
def WritesOnce (host : Host (StateM σ)) (v : View σ φ) (place : Option Text) (t : Text) (status : Nat) (s : σ)
    (result : Ending × σ) : Prop :=
  ∃ ready, v.Same s ready ∧ ((host.write place t).run ready).2 = result.2 ∧
    (((host.write place t).run ready).1 = true → result.1.status = status ∧ v.Wrote s result.2 t place) ∧
    (((host.write place t).run ready).1 = false → result.1.status = 1 ∧ v.Failed s result.2 place)

end Host

/-! ### Desks -/

namespace Desk

/-- What is on a desk. A path stands for the file of its name; paths that lead
nowhere stand for one file that is never there. -/
def view : View Desk (Option Text) where
  file := Directory.nameOf?
  contents d name := name.bind fun n => d.directory.lookup n
  input := Desk.input
  output := Desk.output

theorem run_write (d : Desk) (t : Text) (place : Option Text) : (host.write place t).run d =
    match d.write? t place with
    | some d' => (true, d')
    | none => (false, d) := by
  show StateT.run (match d.write? t place with | some d' => _ | none => _) d = _
  cases d.write? t place <;> rfl

theorem wrote_of_write {d d' : Desk} {t : Text} : ∀ {place : Option Text}, d.write? t place = some d' →
    view.Wrote d d' t place
  | some path, h => by
    obtain ⟨files, hfiles, rfl⟩ := Option.map_eq_some_iff.1 h
    obtain ⟨name, hname, rfl⟩ := Option.map_eq_some_iff.1 hfiles
    refine ⟨?_, fun f hf => ?_, rfl⟩
    · show (Directory.nameOf? path).bind _ = _
      rw [hname, Option.bind_some, OrderedMap.lookup_insert, if_pos rfl]
    · cases f with
      | none => rfl
      | some other =>
        have hne : other ≠ name := fun heq => hf (by rw [heq]; exact hname.symm)
        show List.lookup other (OrderedMap.insert name t.bytes d.directory) = List.lookup other d.directory
        rw [OrderedMap.lookup_insert, if_neg hne]
  | none, h => by
    cases h
    exact ⟨rfl, rfl⟩

/-- **A desk is a lawful host.** -/
theorem lawful_host : host.Lawful view where
  read place d := by
    right
    cases place <;> rfl
  read_same _ d := .refl d
  log_same _ d := .refl d
  write place t d hwell := by
    rw [run_write] at hwell ⊢
    cases hd : d.write? t place with
    | none => simp [hd] at hwell
    | some d' => exact wrote_of_write hd
  write_fails place t d hwell := by
    rw [run_write] at hwell ⊢
    cases hd : d.write? t place with
    | none =>
      cases place with
      | none => rfl
      | some path => exact .refl d
    | some d' => simp [hd] at hwell

end Desk

/-! ### The standard registry -/

/-- **The standard registry converts whatever it is given.** -/
theorem Registry.exists_standard_convert (source target text : Text) :
    ∃ c, (standard.convert source target text).value = some c := by
  unfold convert
  cases hf : standard.get? source target with
  | none => exact ⟨.code unsupported, rfl⟩
  | some f =>
    have hstandard : f = convertProgram := by
      rw [get?, standard, register, OrderedMap.lookup_insert] at hf
      by_cases htags : (tag source, tag target) = (tag "python", tag "java")
      · rw [if_pos htags] at hf
        exact (Option.some.inj hf).symm
      · rw [if_neg htags] at hf
        cases hf
    rw [hstandard]
    exact Option.isSome_iff_exists.1 (isSome_convertProgram text)

/-! ### What a command does -/

namespace Options

variable {σ φ : Type} {host : Host (StateM σ)} {v : View σ φ} {o : Options} {r : Registry} {s : σ}

/-- The state in which a command has its response. -/
def ready (o : Options) (host : Host (StateM σ)) (r : Registry) (s : σ) : σ :=
  let (bytes, s') := (o.fetch host).run s
  ((host.log (Record.upTo o.level (o.respond r bytes).records)).run s').2

/-- **A command reads, responds and writes, in this order.** -/
theorem execute_run (o : Options) (host : Host (StateM σ)) (r : Registry) (s : σ) :
    (o.execute host r).run s =
      (o.deliver host (o.respond r ((o.fetch host).run s).1).value).run (o.ready host r s) := rfl

theorem deliver_ok (a : Answer) (s : σ) :
    (o.deliver host (some (.ok a))).run s =
      (if ((host.write o.output a.text).run s).1 then ⟨a.status, none⟩ else ⟨1, some (.output o.output)⟩,
        ((host.write o.output a.text).run s).2) := rfl

theorem fetch_of_list {m : Type → Type} [Monad m] (host : Host m) (h : o.list = true) :
    o.fetch host = pure none := if_pos h

theorem fetch_of_not_list {m : Type → Type} [Monad m] (host : Host m) (h : o.list = false) :
    o.fetch host = host.read o.input := by
  rw [fetch, h]
  rfl

theorem fetch_same (h : host.Lawful v) (o : Options) (s : σ) : v.Same s ((o.fetch host).run s).2 := by
  cases hlist : o.list with
  | true =>
    rw [fetch_of_list host hlist]
    exact .refl s
  | false =>
    rw [fetch_of_not_list host hlist]
    exact h.read_same o.input s

/-- **Nothing has changed before a command writes.** -/
theorem ready_same (h : host.Lawful v) (o : Options) (r : Registry) (s : σ) : v.Same s (o.ready host r s) :=
  (fetch_same h o s).trans (h.log_same _ _)

theorem writesOnce_of_respond (h : host.Lawful v) {a : Answer}
    (ha : (o.respond r ((o.fetch host).run s).1).value = some (.ok a)) :
    host.WritesOnce v o.output a.text a.status s ((o.execute host r).run s) := by
  have hready := ready_same h o r s
  refine ⟨o.ready host r s, hready, ?_⟩
  rw [execute_run, ha, deliver_ok]
  refine ⟨rfl, fun hwell => ?_, fun hwell => ?_⟩
  · rw [hwell]
    exact ⟨rfl, hready.wrote (h.write _ _ _ hwell)⟩
  · rw [hwell]
    exact ⟨rfl, hready.failed (h.write_fails _ _ _ hwell)⟩

theorem same_of_respond (h : host.Lawful v) {f : Failure}
    (hf : (o.respond r ((o.fetch host).run s).1).value = some (.error f)) :
    ((o.execute host r).run s).1.status = 1 ∧ v.Same s ((o.execute host r).run s).2 := by
  rw [execute_run, hf]
  exact ⟨rfl, ready_same h o r s⟩

/-! ### Responses -/

section Respond

variable {bytes : Option ByteArray} {text : Text}

theorem respond_of_list (h : o.list = true) : o.respond r bytes = pure (.ok ⟨r.listing, true⟩) := if_pos h

/-- A listing is written without a look at the input. -/
theorem execute_of_list {m : Type → Type} [Monad m] [LawfulMonad m] (host : Host m) (h : o.list = true) :
    o.execute host r = host.log [] >>= fun _ => o.deliver host (some (.ok ⟨r.listing, true⟩)) := by
  rw [execute, fetch_of_list host h, pure_bind, respond_of_list h]
  rfl

theorem value_respond_unread (hlist : o.list = false) (h : bytes.bind decode? = none) :
    (o.respond r bytes).value = some (.error (.input o.input)) := by
  unfold respond
  rw [hlist, h]
  rfl

theorem value_convert (o : Options) (r : Registry) (text : Text) :
    (o.convert r text).value =
      (r.convert o.source o.target text).value.map fun c => ⟨c.text, c.isCode⟩ := by
  unfold convert
  rw [Run.value_bind, Run.value_bind, Option.map_eq_bind]
  rfl

theorem value_answer (r : Registry) (q : Request) :
    (answer r q).value =
      (r.convert q.source q.target q.code).value.map fun c => ⟨Request.response c.text, true⟩ := by
  unfold answer
  rw [Run.value_bind, Run.value_bind, Option.map_eq_bind]
  rfl

theorem value_respond_text (hlist : o.list = false) (hjson : o.json = false) (h : bytes.bind decode? = some text) :
    (o.respond r bytes).value =
      (r.convert o.source o.target text).value.map fun c => .ok ⟨c.text, c.isCode⟩ := by
  unfold respond
  rw [hlist, hjson, h]
  refine (Run.value_bind _ _).trans ?_
  rw [value_convert]
  cases (r.convert o.source o.target text).value <;> rfl

theorem value_respond_malformed (hlist : o.list = false) (hjson : o.json = true)
    (h : bytes.bind decode? = some text) (hq : Request.ofText? text = none) :
    (o.respond r bytes).value = some (.error .request) := by
  unfold respond
  rw [hlist, hjson, h]
  simp [hq]

theorem value_respond_request {q : Request} (hlist : o.list = false) (hjson : o.json = true)
    (h : bytes.bind decode? = some text) (hq : Request.ofText? text = some q) :
    (o.respond r bytes).value =
      (r.convert q.source q.target q.code).value.map fun c => .ok ⟨Request.response c.text, true⟩ := by
  unfold respond
  rw [hlist, hjson, h]
  simp only [hq]
  refine (Run.value_bind _ _).trans ?_
  rw [value_answer]
  cases (r.convert q.source q.target q.code).value <;> rfl

end Respond

/-- **A command that responds with a conversion writes what that comes to.** -/
theorem exists_writesOnce (h : host.Lawful v) (answer : Conversion → Answer) {source target text : Text}
    (hvalue : (o.respond .standard ((o.fetch host).run s).1).value =
      (Registry.standard.convert source target text).value.map fun c => .ok (answer c)) :
    ∃ c, (Registry.standard.convert source target text).value = some c ∧
      host.WritesOnce v o.output (answer c).text (answer c).status s ((o.execute host .standard).run s) := by
  obtain ⟨c, hc⟩ := Registry.exists_standard_convert source target text
  rw [hc, Option.map_some] at hvalue
  exact ⟨c, hc, writesOnce_of_respond h hvalue⟩

/-- What a command comes to whose host is seen as `v`, from the state `s` on. -/
structure AllOrNothing (o : Options) (host : Host (StateM σ)) (v : View σ φ) (s : σ) : Prop where
  /-- If the input cannot be read, is not UTF-8 or has to be a request and is none,
  the status is 1 and nothing changes. -/
  refused : o.list = false →
    ((host.read o.input).run s).1 = none ∨ v.text? s o.input = none ∨
        (o.json = true ∧ ∃ text, v.text? s o.input = some text ∧ Request.ofText? text = none) →
      ((o.execute host .standard).run s).1.status = 1 ∧ v.Same s ((o.execute host .standard).run s).2
  /-- A source text is converted as a whole, and what that comes to is written,
  be it code or a report; the status tells which of them it is. -/
  converted : o.list = false → o.json = false → ((host.read o.input).run s).1 ≠ none →
    ∀ text, v.text? s o.input = some text →
      ∃ c, (Registry.standard.convert o.source o.target text).value = some c ∧
        host.WritesOnce v o.output c.text (if c.isCode then 0 else 1) s ((o.execute host .standard).run s)
  /-- A request is answered, whatever its conversion comes to. -/
  answered : o.list = false → o.json = true → ((host.read o.input).run s).1 ≠ none →
    ∀ text q, v.text? s o.input = some text → Request.ofText? text = some q →
      ∃ c, (Registry.standard.convert q.source q.target q.code).value = some c ∧
        host.WritesOnce v o.output (Request.response c.text) 0 s ((o.execute host .standard).run s)
  /-- A listing is written. -/
  listed : o.list = true →
    host.WritesOnce v o.output Registry.standard.listing 0 s ((o.execute host .standard).run s)
  /-- A listing asks for no input, and goes by no other option than the place
  that it is written to. -/
  listed_alone : o.list = true → ∀ (o' : Options) (read : Option Text → StateM σ (Option ByteArray)),
    o'.list = true → o'.output = o.output →
      o'.execute { host with read := read } .standard = o.execute host .standard

end Options

section

variable {σ φ : Type} {host : Host (StateM σ)} {v : View σ φ}

theorem Host.Lawful.bind_decode (h : host.Lawful v) {place : Option Text} {s : σ}
    (hread : ((host.read place).run s).1 ≠ none) :
    ((host.read place).run s).1.bind Options.decode? = v.text? s place := by
  rw [View.text?, (h.read place s).resolve_left hread]

/-- **A command writes all or nothing, and its status tells which.** -/
theorem writes_all_or_nothing (h : host.Lawful v) (o : Options) (s : σ) : o.AllOrNothing host v s where
  refused hlist hinput := by
    have hfetch := Options.fetch_of_not_list host hlist
    by_cases hread : ((host.read o.input).run s).1 = none
    · have hnone : ((o.fetch host).run s).1.bind Options.decode? = none := by
        rw [hfetch, hread]
        rfl
      exact Options.same_of_respond h (Options.value_respond_unread hlist hnone)
    · rw [← h.bind_decode hread, ← hfetch] at hinput
      rcases hinput with hnone | hnone | ⟨hjson, text, htext, hq⟩
      · exact absurd (hfetch ▸ hnone) hread
      · exact Options.same_of_respond h (Options.value_respond_unread hlist hnone)
      · exact Options.same_of_respond h (Options.value_respond_malformed hlist hjson htext hq)
  converted hlist hjson hread text htext := by
    rw [← h.bind_decode hread, ← Options.fetch_of_not_list host hlist] at htext
    exact Options.exists_writesOnce h (fun c => ⟨c.text, c.isCode⟩) (Options.value_respond_text hlist hjson htext)
  answered hlist hjson hread text q htext hq := by
    rw [← h.bind_decode hread, ← Options.fetch_of_not_list host hlist] at htext
    exact Options.exists_writesOnce h (fun c => ⟨Request.response c.text, true⟩)
      (Options.value_respond_request hlist hjson htext hq)
  listed hlist := by
    have hvalue : (o.respond .standard ((o.fetch host).run s).1).value =
        some (.ok ⟨Registry.standard.listing, true⟩) := by
      rw [Options.respond_of_list hlist, Run.value_pure]
    exact Options.writesOnce_of_respond h hvalue
  listed_alone hlist o' read hlist' houtput := by
    rw [Options.execute_of_list _ hlist, Options.execute_of_list _ hlist']
    unfold Options.deliver
    rw [houtput]

end

/-- A text with a list in it, in a file that the report of it is written over:
input and output are two paths of one file. -/
def overwriting : Options := ⟨some "./list.py", some "list.py", "Python", "JAVA ", false, false, false⟩

/-- The files of that command, and another one. -/
def overwritten : Directory :=
  [("list.py".toList, Text.bytes "x = [1]\n"), ("other.py".toList, Text.bytes "y = 1\n")]

/-- A request for the conversion of that text, on standard input. -/
def requested : Request := ⟨"x = [1]\n", "python", "java"⟩

/-- A command that takes a request. -/
def requesting : Options := ⟨none, none, "python", "java", true, false, false⟩

theorem writes_all_or_nothing_overwriting :
    Desk.host.Lawful Desk.view ∧
      (∃ arguments, Invocation.ofArguments arguments = .proceed overwriting) ∧
      (∃ arguments, Invocation.ofArguments arguments = .proceed requesting) ∧
      (∃ c, (Registry.standard.convert "Python" "JAVA " "x = [1]\n").value = some c ∧
        Desk.host.WritesOnce Desk.view (some "list.py".toList) c.text (if c.isCode then 0 else 1)
          ⟨overwritten, ByteArray.empty, []⟩
          ((overwriting.execute Desk.host .standard).run ⟨overwritten, ByteArray.empty, []⟩)) ∧
      (overwriting.run .standard overwritten ByteArray.empty).status = 1 ∧
      (overwriting.run .standard overwritten ByteArray.empty).output = [] ∧
      (overwriting.run .standard overwritten ByteArray.empty).directory =
        [("list.py".toList, Text.bytes "❌ Errors:\nLine 1: List data type is not supported\n"),
          ("other.py".toList, Text.bytes "y = 1\n")] ∧
      (∃ c, (Registry.standard.convert "python" "java" "x = [1]\n").value = some c ∧
        Desk.host.WritesOnce Desk.view none (Request.response c.text) 0 ⟨[], requested.write.bytes, []⟩
          ((requesting.execute Desk.host .standard).run ⟨[], requested.write.bytes, []⟩)) ∧
      (requesting.run .standard [] requested.write.bytes).status = 0 ∧
      (requesting.run .standard [] requested.write.bytes).output =
        "\x7b\n  \"output\": \"❌ Errors:\\nLine 1: List data type is not supported\\n\"\n\x7d\n" := by
  have hconverted := (writes_all_or_nothing Desk.lawful_host overwriting ⟨overwritten, ByteArray.empty, []⟩).converted
    rfl rfl (by decide +kernel) "x = [1]\n" (by decide +kernel)
  have hanswered := (writes_all_or_nothing Desk.lawful_host requesting ⟨[], requested.write.bytes, []⟩).answered
    rfl rfl (by decide +kernel) requested.write requested (by decide +kernel) (Request.ofText?_write requested)
  have hoverwriting := (Invocation.exists_arguments_iff overwriting).2 (by decide)
  have hrequesting := (Invocation.exists_arguments_iff requesting).2 (by decide)
  exact ⟨Desk.lawful_host, hoverwriting, hrequesting, hconverted, by decide +kernel, by decide +kernel,
    by decide +kernel, hanswered, by decide +kernel, by decide +kernel⟩

end Offside
