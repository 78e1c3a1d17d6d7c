import CohortQuery.Proofs.Program.Printed
import CohortQuery.Proofs.Store.Sending

/-!
# What is shown is what is sent

The command `compile` shows the statements of a cohort, the command `cohort` sends them. Both
compile them on their own, one before it would ask the store and one as a part of what it asks.
-/

set_option autoImplicit false

namespace CohortQuery

namespace Store

namespace Exchange

variable {α β γ : Type}

def unlogged : Exchange α → Exchange α
  | done a => done a
  | note _ rest => rest.unlogged
  | ask r next => ask r fun reply => (next reply).unlogged

theorem unlogged_bind (x : Exchange α) (f : α → Exchange β) :
    (x.bind f).unlogged = x.unlogged.bind fun a => (f a).unlogged := by
  induction x with
  | done a => rfl
  | note e rest ih => exact ih
  | ask r next ih => exact congrArg (ask r) (funext ih)

theorem bind_assoc (x : Exchange α) (f : α → Exchange β) (g : β → Exchange γ) :
    (x.bind f).bind g = x.bind fun a => (f a).bind g := by
  induction x with
  | done a => rfl
  | note e rest ih => exact congrArg (note e) ih
  | ask r next ih => exact congrArg (ask r) (funext ih)

theorem unlogged_play (otherwise : Reply) (x : Exchange α) (replies : List Reply) :
    (x.unlogged.play otherwise replies).value = (x.play otherwise replies).value ∧
      (x.unlogged.play otherwise replies).requests = (x.play otherwise replies).requests := by
  induction x generalizing replies with
  | done a => exact ⟨rfl, rfl⟩
  | note e rest ih => exact ih replies
  | ask r next ih =>
    cases replies with
    | nil => exact (ih otherwise []).imp_right (congrArg (r :: ·))
    | cons reply replies => exact (ih reply replies).imp_right (congrArg (r :: ·))

theorem play_map (otherwise : Reply) (g : α → β) (x : Exchange α) (replies : List Reply) :
    ((x.bind fun a => done (g a)).play otherwise replies).value =
        g (x.play otherwise replies).value ∧
      ((x.bind fun a => done (g a)).play otherwise replies).requests =
        (x.play otherwise replies).requests := by
  induction x generalizing replies with
  | done a => exact ⟨rfl, rfl⟩
  | note e rest ih => exact ih replies
  | ask r next ih =>
    cases replies with
    | nil => exact (ih otherwise []).imp_right (congrArg (r :: ·))
    | cons reply replies => exact (ih reply replies).imp_right (congrArg (r :: ·))

def Ends (P : α → Prop) : Exchange α → Prop
  | done a => P a
  | note _ rest => rest.Ends P
  | ask _ next => ∀ reply, (next reply).Ends P

theorem ends_bind {P : α → Prop} {Q : β → Prop} {x : Exchange α} {f : α → Exchange β}
    (hx : x.Ends P) (hf : ∀ a, P a → (f a).Ends Q) : (x.bind f).Ends Q := by
  induction x with
  | done a => exact hf a hx
  | note e rest ih => exact ih hx
  | ask r next ih => exact fun reply => ih reply (hx reply)

theorem ends_somehow (x : Exchange α) : x.Ends fun _ => True := by
  induction x with
  | done a => trivial
  | note e rest ih => exact ih
  | ask r next ih => exact ih

theorem ends_play {P : α → Prop} {x : Exchange α} (hx : x.Ends P) (otherwise : Reply)
    (replies : List Reply) : P (x.play otherwise replies).value := by
  induction x generalizing replies with
  | done a => exact hx
  | note e rest ih => exact ih hx replies
  | ask r next ih =>
    cases replies with
    | nil => exact ih otherwise (hx otherwise) []
    | cons reply replies => exact ih reply (hx reply) replies

end Exchange

section

variable {α β : Type}

/-- The operation does not end with an error of its statements. -/
structure Spares (x : Operation α) : Prop where
  ends : x.run.Ends fun r => ∀ d, r ≠ .error (.compile d)

theorem spares_result {r : Except StoreError α} (h : ∀ d, r ≠ .error (.compile d)) :
    Spares (Operation.lift r) :=
  ⟨h⟩

theorem spares_pure (a : α) : Spares (pure a) :=
  spares_result (r := .ok a) (by simp)

theorem spares_note (e : Log.Entry) : Spares (Operation.note e) :=
  ⟨(spares_pure ()).ends⟩

theorem spares_bind {x : Operation α} {f : α → Operation β} (hx : Spares x)
    (hf : ∀ a, Spares (f a)) : Spares (x >>= f) := by
  refine ⟨Exchange.ends_bind hx.ends fun r hr => ?_⟩
  cases r with
  | ok a => exact (hf a).ends
  | error e =>
    intro d h
    exact hr d (congrArg Except.error (Except.error.inj h))

theorem spares_within (seconds : Nat) (call : Call α) :
    Spares (Operation.within seconds call) := by
  have hlate : Spares (Operation.timedOut seconds : Operation α) :=
    spares_bind (spares_note _) fun _ => spares_result (by simp)
  have htime (x : Operation α) (hx : Spares x) :
      Spares (if seconds = 0 then Operation.timedOut seconds else x) := by
    split
    · exact hlate
    · exact hx
  have hcall : Spares (ExceptT.mk do return .ok (← call.run) :
      Operation (Except ClientFault α)) :=
    ⟨Exchange.ends_bind (Exchange.ends_somehow call.run) fun _ _ d h => nomatch h⟩
  refine spares_bind hcall fun r => ?_
  match r with
  | .error .silence => exact hlate
  | .error .unboundArgument | .error .unboundFields => exact spares_result (by simp)
  | .error .noRows | .error (.badReply _) | .error (.unreachable _) =>
    exact htime _ (spares_result (by simp))
  | .ok a => exact htime _ (spares_pure a)

theorem spares_compile {c : Except CompileError α} {a : α} (hc : c = .ok a) :
    Spares (Operation.compile c) := by
  subst hc
  exact spares_pure a

theorem members_spares {r : CohortRequest} {q : Query} (hq : r.listing = .ok q)
    (seconds limit : Nat) : Spares (members seconds r limit) := by
  have truncated (found : List Member) : Spares (do
      if found.length = limit then
        Operation.note
          (Log.debug "Cohort member listing truncated" [("limit", Text.numeral limit)])
      return found : Operation (List Member)) := by
    split
    next => exact spares_bind (spares_note _) fun _ => spares_pure found
    next => exact spares_pure found
  rw [members]
  refine spares_bind (spares_compile hq) fun _ => spares_bind (spares_note _) fun _ => ?_
  split
  next => exact spares_bind (spares_pure []) truncated
  next => exact spares_bind (spares_within seconds _) truncated

theorem materialize_spares {r : CohortRequest} {cohort : String} {m : Materialization}
    (hm : r.materialization cohort = .ok m) (seconds : Nat) :
    Spares (materialize seconds r cohort) := by
  rw [materialize]
  refine spares_bind (spares_compile hm) fun _ => ?_
  refine spares_bind (spares_within seconds _) fun _ => ?_
  refine spares_bind (spares_within seconds _) fun _ => ?_
  refine spares_bind (spares_within seconds _) fun _ => ?_
  exact spares_bind (spares_note _) fun _ => spares_pure _

end

end Store

def Store.Request.query (r : Store.Request) : Query :=
  ⟨r.sql, r.params⟩

namespace Program

open CommandLine (CohortArguments Command)
open Store (CohortRequest Exchange Operation Reply Serial Spares Step)

section

variable {ε α β : Type}

/-- Apart from what it notes, the work ends at once. -/
def Settles (x : ExceptT ε Exchange α) (r : Except ε α) : Prop :=
  x.run.unlogged = .done r

theorem settles_result (r : Except ε α) :
    Settles (ExceptT.mk (pure r) : ExceptT ε Exchange α) r :=
  rfl

theorem settled_bind {x : ExceptT ε Exchange α} {a : α} (hx : Settles x (.ok a))
    (f : α → ExceptT ε Exchange β) : (x >>= f).run.unlogged = (f a).run.unlogged := by
  refine (Exchange.unlogged_bind x.run (ExceptT.bindCont f)).trans ?_
  rw [hx]
  rfl

theorem settles_failed {x : ExceptT ε Exchange α} {e : ε} (hx : Settles x (.error e))
    (f : α → ExceptT ε Exchange β) : Settles (x >>= f) (.error e) := by
  refine (Exchange.unlogged_bind x.run (ExceptT.bindCont f)).trans ?_
  rw [hx]
  rfl

theorem settles_bind {x : ExceptT ε Exchange α} {r : Except ε α} (hx : Settles x r)
    {f : α → ExceptT ε Exchange β} {g : α → Except ε β} (hf : ∀ a, Settles (f a) (g a)) :
    Settles (x >>= f) (r >>= g) := by
  cases r with
  | error e => exact settles_failed hx f
  | ok a => exact (settled_bind hx f).trans (hf a)

theorem settles_note (e : Log.Entry) : Settles (Operation.note e) (.ok ()) :=
  rfl

theorem settles_notes (es : List Log.Entry) : Settles (Store.noteAll es) (.ok ()) := by
  induction es with
  | nil => rfl
  | cons e es ih => exact settles_bind (settles_note e) fun _ => ih

theorem settles_screened (names : List String) :
    Settles (Store.screened names) (.ok (.ofNames names)) :=
  settled_bind (settles_notes _) fun _ => pure (AllowList.ofNames names)

theorem settles_store {op : Operation α} {a : α} (h : Settles op (.ok a)) :
    Settles (Work.ofStore op) (.ok a) := by
  refine (Exchange.unlogged_bind op.run _).trans ?_
  rw [h]
  rfl

theorem settles_play {x : ExceptT ε Exchange α} {r : Except ε α} (h : Settles x r)
    (otherwise : Reply) (replies : List Reply) :
    (x.run.play otherwise replies).value = r ∧ (x.run.play otherwise replies).requests = [] := by
  obtain ⟨hv, hr⟩ := Exchange.unlogged_play otherwise x.run replies
  rw [← hv, ← hr, h]
  exact ⟨rfl, rfl⟩

theorem same_play {x y : Exchange α} (h : x.unlogged = y.unlogged) (otherwise : Reply)
    (replies : List Reply) :
    (x.play otherwise replies).value = (y.play otherwise replies).value ∧
      (x.play otherwise replies).requests = (y.play otherwise replies).requests := by
  obtain ⟨hx, hr⟩ := Exchange.unlogged_play otherwise x replies
  obtain ⟨hy, hs⟩ := Exchange.unlogged_play otherwise y replies
  rw [h] at hx hr
  exact ⟨hx.symm.trans hy, hr.symm.trans hs⟩

theorem mapped_run (g : α → β) (x : ExceptT ε Exchange α) :
    (do return g (← x) : ExceptT ε Exchange β).run = x.run.bind fun r => .done (r.map g) := by
  refine congrArg x.run.bind (funext fun r => ?_)
  cases r <;> rfl

theorem stored_map (g : α → β) (op : Operation α) :
    (do return g (← Work.ofStore op) : Work β).run =
      (Work.ofStore (do return g (← op) : Operation β)).run := by
  have hs : (Work.ofStore (do return g (← op) : Operation β)).run =
      (op.run.bind fun r => .done (r.map g)).bind fun r => .done (r.mapError Failure.store) :=
    congrArg (fun x => Exchange.bind x fun r => .done (Except.mapError Failure.store r))
      (mapped_run g op)
  have hm : (do return g (← Work.ofStore op) : Work β).run =
      (op.run.bind fun r => .done (r.mapError Failure.store)).bind fun r => .done (r.map g) :=
    mapped_run g (Work.ofStore op)
  rw [hs, hm, Exchange.bind_assoc, Exchange.bind_assoc]
  refine congrArg op.run.bind (funext fun r => ?_)
  cases r <;> rfl

end

section

variable (s : Surroundings) (args : CohortArguments) (m : Option String)

/-- What both commands compile, if the definition is `d`. -/
def requested (d : Definition) : CohortRequest :=
  ⟨args.projectId, d, args.dateTo, .ofNames args.properties⟩

theorem compile_settles : Settles (Program.compile s args m) (do
    let d ← readDefinition s args.definition
    (statements (requested args d) m).mapError Failure.compile) := by
  refine settles_bind (settles_result _) fun d => ?_
  refine (settled_bind (settles_store (settles_screened args.properties)) _).trans ?_
  cases hc : statements (requested args d) m with
  | error e =>
    unfold requested at hc
    rw [hc]
    exact settles_failed (settles_result (.error (Failure.compile e))) _
  | ok c =>
    unfold requested at hc
    rw [hc]
    refine (settled_bind (settles_result (.ok c)) _).trans ?_
    exact settled_bind (settles_store (settles_notes _)) fun _ => pure c

/-- What the command `cohort` asks the store to do. -/
def submission (seconds : Nat) (r : CohortRequest) (limit : Nat) : Operation Json :=
  match m with
  | some cohort => do return (← Store.materialize seconds r cohort).toJson
  | none => do return .list ((← Store.members seconds r limit).map (·.toJson))

def memberLimit (limit : Option Nat) : Nat :=
  min (limit.getD Limits.cohortMembers) Limits.cohortMembers

theorem cohort_unlogged (hp : args.properties ≠ []) (seconds : Nat) (limit : Option Nat)
    {d : Definition} (hd : readDefinition s args.definition = .ok d) :
    (cohort s seconds args m limit).run.unlogged =
      (Work.ofStore (submission m seconds (requested args d) (memberLimit limit))).run.unlogged := by
  have ha : allowList seconds args = Store.screened args.properties :=
    if_neg (by simpa using hp)
  refine (settled_bind (a := d) (by rw [hd]; exact settles_result _) _).trans ?_
  rw [ha]
  refine (settled_bind (settles_store (settles_screened args.properties)) _).trans ?_
  refine (settled_bind (settles_store (settles_note _)) _).trans ?_
  cases m with
  | none => exact congrArg Exchange.unlogged (stored_map _ _)
  | some cohort => exact congrArg Exchange.unlogged (stored_map _ _)

end

namespace Compiled

def steps (seconds limit : Nat) : Compiled → List Step
  | listing q => Step.listing seconds limit q
  | materialization m => Step.storing seconds m

theorem steps_queries (seconds : Nat) {limit : Nat} (c : Compiled)
    (h : ∀ q, c = .listing q → limit ≠ 0) :
    (c.steps seconds limit).map Step.query = c.queries := by
  cases c with
  | listing q => rw [steps, Step.listing, if_neg (h q rfl)]; rfl
  | materialization m => rfl

end Compiled

section

variable {r : CohortRequest} {m : Option String} {c : Compiled} (hc : statements r m = .ok c)
  (seconds limit : Nat)

include hc

theorem submission_verbatim : ∀ step ∈ c.steps seconds limit, Verbatim step.query.sql := by
  rcases statements_cases hc with ⟨q, rfl, hq, rfl⟩ | ⟨cohort, stored, rfl, hm, rfl⟩
  · exact Store.listing_steps_verbatim seconds limit hq
  · exact Store.storing_steps_verbatim seconds cohort hm

theorem submission_serial : Serial (c.steps seconds limit) (submission m seconds r limit) := by
  rcases statements_cases hc with ⟨q, rfl, hq, rfl⟩ | ⟨cohort, stored, rfl, hm, rfl⟩
  · exact Store.serial_quiet (Store.members_serial seconds limit hq) fun _ => Store.serial_pure _
  · exact Store.serial_quiet (Store.materialize_serial seconds cohort hm) fun _ =>
      Store.serial_pure _

theorem submission_spares : Spares (submission m seconds r limit) := by
  rcases statements_cases hc with ⟨q, rfl, hq, rfl⟩ | ⟨cohort, stored, rfl, hm, rfl⟩
  · exact Store.spares_bind (Store.members_spares hq seconds limit) fun _ => Store.spares_pure _
  · exact Store.spares_bind (Store.materialize_spares hm seconds) fun _ => Store.spares_pure _

end

theorem submission_refused {r : CohortRequest} {m : Option String} {e : CompileError}
    (h : statements r m = .error e) (seconds limit : Nat) :
    submission m seconds r limit = Operation.lift (.error (.compile e)) := by
  cases m with
  | none =>
    cases hq : r.listing with
    | error d =>
      obtain rfl : d = e := by simpa [statements, hq] using h
      rw [submission, Store.members, hq]
      rfl
    | ok q => simp [statements, hq] at h
  | some cohort =>
    cases hm : r.materialization cohort with
    | error d =>
      obtain rfl : d = e := by simpa [statements, hm] using h
      rw [submission, Store.materialize, hm]
      rfl
    | ok stored => simp [statements, hm] at h

section

variable (s : Surroundings) (args : CohortArguments) (m : Option String)
  (settings : Settings.Effective) (otherwise : Reply) (replies : List Reply)

theorem shown_play :
    let played := (execute s settings (.compile args m)).run.play otherwise replies
    played.value = (do
      let d ← readDefinition s args.definition
      (statements (requested args d) m).mapError Failure.compile).map
        (fun c : Compiled => shown c.toJson) ∧ played.requests = [] := by
  obtain ⟨hv, hr⟩ := settles_play (compile_settles s args m) otherwise replies
  obtain ⟨hv', hr'⟩ := Exchange.play_map otherwise
    (Except.map fun c : Compiled => shown c.toJson) (Program.compile s args m).run replies
  have hm : (execute s settings (.compile args m)).run = (Program.compile s args m).run.bind
      fun r => .done (r.map fun c : Compiled => shown c.toJson) :=
    mapped_run _ _
  dsimp only
  rw [hm, hv', hr', hv, hr]
  exact ⟨rfl, rfl⟩

theorem sent_play (hp : args.properties ≠ []) (limit : Option Nat) {d : Definition}
    (hd : readDefinition s args.definition = .ok d) :
    let played := (execute s settings (.cohort args m limit)).run.play otherwise replies
    let store := (submission m settings.store.timeoutSecs (requested args d)
      (memberLimit limit)).run.play otherwise replies
    played.value = (store.value.mapError Failure.store).map shown ∧
      played.requests = store.requests := by
  have hu := cohort_unlogged s args m hp settings.store.timeoutSecs limit hd
  have hm : (execute s settings (.cohort args m limit)).run.unlogged =
      ((Work.ofStore (submission m settings.store.timeoutSecs (requested args d)
        (memberLimit limit))).run.bind fun r => .done (r.map shown)).unlogged := by
    refine (congrArg Exchange.unlogged (mapped_run shown _)).trans ?_
    rw [Exchange.unlogged_bind, Exchange.unlogged_bind]
    exact congrArg (Exchange.bind · _) hu
  obtain ⟨hv, hr⟩ := same_play hm otherwise replies
  obtain ⟨hv₁, hr₁⟩ := Exchange.play_map otherwise (Except.map shown)
    (Work.ofStore (submission m settings.store.timeoutSecs (requested args d)
      (memberLimit limit))).run replies
  obtain ⟨hv₂, hr₂⟩ := Exchange.play_map otherwise (Except.mapError Failure.store)
    (submission m settings.store.timeoutSecs (requested args d) (memberLimit limit)).run replies
  exact ⟨hv.trans (hv₁.trans (congrArg _ hv₂)), hr.trans (hr₁.trans hr₂)⟩

end

theorem definition_fits {s : Surroundings} {path : String} {d : Definition}
    (h : readDefinition s path = .ok d) : ∀ l ∈ d.root.leaves, ∀ o ∈ l.operands, Fits o := by
  unfold readDefinition at h
  dsimp only at h
  split at h
  next => cases h
  next content _ =>
    cases hd : Definition.read content with
    | error e =>
      rw [hd] at h
      cases h
    | ok d' =>
      rw [hd] at h
      obtain rfl := Except.ok.inj h
      exact read_fits hd

theorem read_failed {s : Surroundings} {path : String} {f : Failure}
    (h : readDefinition s path = .error f) :
    (∃ p, f = .unreadable p) ∨ ∃ p e, f = .malformed p e := by
  unfold readDefinition at h
  dsimp only at h
  split at h
  next => exact .inl ⟨_, (Except.error.inj h).symm⟩
  next content _ =>
    cases hd : Definition.read content with
    | error e =>
      rw [hd] at h
      exact .inr ⟨_, e, (Except.error.inj h).symm⟩
    | ok d =>
      rw [hd] at h
      cases h

section

variable {s : Surroundings} {args : CohortArguments} {m : Option String}
  (settings : Settings.Effective) (limit : Option Nat) (otherwise : Reply) (replies : List Reply)

theorem sent_unread {f : Failure} (hd : readDefinition s args.definition = .error f) :
    let sent := (execute s settings (.cohort args m limit)).run.play otherwise replies
    sent.value = .error f ∧ sent.requests = [] := by
  have hc : Settles (cohort s settings.store.timeoutSecs args m limit) (.error f) :=
    settles_failed (by rw [hd]; exact settles_result _) _
  exact settles_play (settles_failed hc _) otherwise replies

section

variable (hp : args.properties ≠ []) {d : Definition}
  (hd : readDefinition s args.definition = .ok d)

include hp hd

theorem sent_refused {e : CompileError} (he : statements (requested args d) m = .error e) :
    let sent := (execute s settings (.cohort args m limit)).run.play otherwise replies
    sent.value = .error (.store (.compile e)) ∧ sent.requests = [] := by
  obtain ⟨hv, hr⟩ := sent_play s args m settings otherwise replies hp limit hd
  rw [submission_refused he] at hv hr
  exact ⟨hv, hr⟩

theorem sent_compiled {c : Compiled} (hc : statements (requested args d) m = .ok c) :
    let sent := (execute s settings (.cohort args m limit)).run.play otherwise replies
    let steps := c.steps settings.store.timeoutSecs (memberLimit limit)
    sent.requests <+: steps.map Step.request ∧
      ((∃ answer, sent.value = .ok answer) → sent.requests = steps.map Step.request) ∧
      ((∃ answer, sent.value = .ok answer) ↔ ∀ (i : Nat) (step : Step), steps[i]? = some step →
        step.good (replies[i]?.getD otherwise)) ∧
      ∀ f, sent.value = .error f → ∃ e, f = .store e ∧ ∀ d, e ≠ .compile d := by
  obtain ⟨hv, hr⟩ := sent_play s args m settings otherwise replies hp limit hd
  have hs := submission_serial hc settings.store.timeoutSecs (memberLimit limit)
  have hq := submission_verbatim hc settings.store.timeoutSecs (memberLimit limit)
  have hn := Exchange.ends_play (submission_spares hc settings.store.timeoutSecs
    (memberLimit limit)).ends otherwise replies
  have hsent := Store.serial_sent otherwise replies hq hs
  have complete {a : Json} := Store.serial_complete otherwise replies hq hs (a := a)
  have hok := hsent.succeeds _ rfl
  have hfirst := hsent.requests _ rfl
  generalize (submission m settings.store.timeoutSecs (requested args d)
    (memberLimit limit)).run.play otherwise replies = store at *
  dsimp only
  rw [hv, hr]
  have answered : (∃ answer, (store.value.mapError Failure.store).map shown = .ok answer) ↔
      ∃ a, store.value = .ok a := by
    cases store.value <;> simp [Except.map, Except.mapError]
  refine ⟨hfirst, ?_, answered.trans hok, ?_⟩
  · intro ha
    obtain ⟨a, ha⟩ := answered.mp ha
    exact complete ha
  · intro f hf
    cases hw : store.value with
    | ok a =>
      rw [hw] at hf
      cases hf
    | error e =>
      rw [hw] at hf hn
      exact ⟨e, (Except.error.inj hf).symm, fun d he => hn d (congrArg Except.error he)⟩

end

end

theorem member_limit (limit : Option Nat) (h : limit ≠ some 0) : memberLimit limit ≠ 0 := by
  unfold memberLimit
  cases limit with
  | none => decide
  | some n =>
    have hn : n ≠ 0 := by simpa using h
    have hl : Limits.cohortMembers ≠ 0 := by decide
    simp only [Option.getD_some]
    omega

theorem sent_queries {r : CohortRequest} {m : Option String} {c : Compiled}
    (hc : statements r m = .ok c) (seconds : Nat) {limit : Option Nat}
    (hl : m = none → limit ≠ some 0) :
    ((c.steps seconds (memberLimit limit)).map Step.request).map Store.Request.query =
      c.queries := by
  rw [List.map_map]
  refine Compiled.steps_queries seconds c fun q hq => ?_
  subst hq
  refine member_limit limit (hl ?_)
  rcases statements_cases hc with ⟨_, hm, _⟩ | ⟨_, _, _, _, he⟩
  · exact hm
  · cases he

/-- The command `compile` asks nothing and shows the statements that `cohort` sends, their texts and
their values as they are read back from what it prints: `cohort` sends no others, sends all of them
if it succeeds, and succeeds just if the reply to each is good. What is wrong with the definition or
the arguments ends both commands, and `cohort` before it sends anything; a statement that does not
compile is then an error of the store. -/
theorem compile_shows_cohort (s : Surroundings) (args : CohortArguments)
    (hp : args.properties ≠ []) (m : Option String) (limit : Option Nat)
    (hl : m = none → limit ≠ some 0) (settings settings' : Settings.Effective)
    (otherwise otherwise' : Reply) (replies replies' : List Reply) :
    let preview := (execute s settings (.compile args m)).run.play otherwise replies
    let sent := (execute s settings' (.cohort args m limit)).run.play otherwise' replies'
    preview.requests = [] ∧
      (∀ text, preview.value = .ok text → ∃ c : Compiled, text = shown c.toJson ∧
        shownStatements? text = some c.queries ∧
        sent.requests.map Store.Request.query <+: c.queries ∧
        ((∃ answer, sent.value = .ok answer) → sent.requests.map Store.Request.query = c.queries) ∧
        ((∃ answer, sent.value = .ok answer) ↔ ∀ (i : Nat) (step : Step),
          (c.steps settings'.store.timeoutSecs (memberLimit limit))[i]? = some step →
            step.good (replies'[i]?.getD otherwise'))) ∧
      (∀ path, preview.value = .error (.unreadable path) ↔
        sent.value = .error (.unreadable path)) ∧
      (∀ path e, preview.value = .error (.malformed path e) ↔
        sent.value = .error (.malformed path e)) ∧
      (∀ e, preview.value = .error (.compile e) ↔ sent.value = .error (.store (.compile e))) ∧
      ∀ f, preview.value = .error f → sent.requests = [] := by
  intro preview sent
  obtain ⟨hv, hr⟩ := shown_play s args m settings otherwise replies
  refine ⟨hr, ?_⟩
  cases hd : readDefinition s args.definition with
  | error f =>
    rw [hd] at hv
    have hpreview : preview.value = .error f := hv
    obtain ⟨hsent, hnone⟩ := sent_unread (m := m) settings' limit otherwise'
      replies' hd
    change sent.value = .error f at hsent
    rw [hpreview, hsent]
    rcases read_failed hd with ⟨p, rfl⟩ | ⟨p, e, rfl⟩ <;> simpa using hnone
  | ok d =>
    rw [hd] at hv
    have hcompiled : preview.value = ((statements (requested args d) m).mapError
        Failure.compile).map fun c : Compiled => shown c.toJson := hv
    cases hc : statements (requested args d) m with
    | error e =>
      rw [hc] at hcompiled
      have hpreview : preview.value = .error (.compile e) := hcompiled
      obtain ⟨hsent, hnone⟩ := sent_refused settings' limit otherwise' replies' hp
        hd hc
      change sent.value = .error (.store (.compile e)) at hsent
      rw [hpreview, hsent]
      simpa using hnone
    | ok c =>
      rw [hc] at hcompiled
      have hpreview : preview.value = .ok (shown c.toJson) := hcompiled
      obtain ⟨hfirst, hall, hgood, hfail⟩ := sent_compiled settings' limit
        otherwise' replies' hp hd hc
      change sent.requests <+: _ at hfirst
      have hqueries := sent_queries hc settings'.store.timeoutSecs hl
      have hshown (f : Failure) : preview.value ≠ .error f := by
        rw [hpreview]
        simp
      refine ⟨?_, fun path => iff_of_false (hshown _) fun h => ?_,
        fun path e => iff_of_false (hshown _) fun h => ?_,
        fun e => iff_of_false (hshown _) fun h => ?_, fun f h => absurd h (hshown f)⟩
      · intro text ht
        obtain rfl := Except.ok.inj (ht.symm.trans hpreview)
        refine ⟨c, rfl, statements_shown hc (definition_fits hd), ?_, ?_, hgood⟩
        · rw [← hqueries]
          exact hfirst.map _
        · intro ha
          rw [← hqueries]
          exact congrArg _ (hall ha)
      · obtain ⟨_, he, _⟩ := hfail _ h
        cases he
      · obtain ⟨_, he, _⟩ := hfail _ h
        cases he
      · obtain ⟨_, he, hd'⟩ := hfail _ h
        exact hd' e (Failure.store.inj he).symm

def everyoneSurroundings : Surroundings where
  disk path := if path = "/work/everyone.json"
    then .text "\x7b\"kind\": \"and\", \"members\": []\x7d" else .absent
  places := ⟨"/home/ann", "/work"⟩
  environment := []
  clock := "1740830400"

def everyoneArguments : CohortArguments where
  definition := "everyone.json"
  projectId := "6f1c2b8e-3d4a-4e5f-8a9b-0c1d2e3f4a5b"
  dateTo := none
  properties := ["plan"]

theorem ok_exists {ε α : Type} {x : Except ε α} (h : x.isOk = true) : ∃ a, x = .ok a := by
  cases x with
  | error e => cases h
  | ok a => exact ⟨a, rfl⟩

theorem everyone_compiles : ∃ c : Compiled, (do
    let d ← readDefinition everyoneSurroundings everyoneArguments.definition
    (statements (requested everyoneArguments d) (some "all")).mapError Failure.compile) =
      .ok c := by
  have path : Path.expand everyoneSurroundings.places everyoneArguments.definition =
      "/work/everyone.json" := rfl
  have chars : "\x7b\"kind\": \"and\", \"members\": []\x7d".toList = _ := String.toList_ofList
  have found : readDefinition everyoneSurroundings everyoneArguments.definition =
      (Definition.read "\x7b\"kind\": \"and\", \"members\": []\x7d").mapError
        (.malformed everyoneArguments.definition) := by
    unfold readDefinition
    rw [path]
    rfl
  have start : Bindings.start everyoneArguments.projectId everyoneArguments.dateTo =
      .ok ⟨[("project_id", .uuid "6f1c2b8e-3d4a-4e5f-8a9b-0c1d2e3f4a5b")], 0, none⟩ :=
    grouped_start rfl
  have stated (d : Definition) : statements (requested everyoneArguments d) (some "all") =
      Compiled.materialization <$> d.materialization "all" (.ofNames everyoneArguments.properties)
        ⟨[("project_id", .uuid "6f1c2b8e-3d4a-4e5f-8a9b-0c1d2e3f4a5b")], 0, none⟩ := by
    unfold statements CohortRequest.materialization requested
    dsimp only
    rw [start]
    rfl
  refine ok_exists ?_
  simp only [stated]
  rw [found, Definition.read_chars chars]
  decide +kernel

def plainSettings : Settings.Effective :=
  Settings.layer .nothing .empty

theorem everyone_shown : everyoneArguments.properties ≠ [] ∧ ∃ c : Compiled,
    ((execute everyoneSurroundings plainSettings
      (.compile everyoneArguments (some "all"))).run.play .silence []).value =
        .ok (shown c.toJson) ∧
    shownStatements? (shown c.toJson) = some c.queries ∧
    ((execute everyoneSurroundings plainSettings
      (.cohort everyoneArguments (some "all") none)).run.play .silence
        [.rows .nothing none]).requests.map Store.Request.query <+: c.queries := by
  have hp : everyoneArguments.properties ≠ [] := by decide
  obtain ⟨c, hc⟩ := everyone_compiles
  have hv := (shown_play everyoneSurroundings everyoneArguments (some "all") plainSettings .silence
    []).1
  rw [hc] at hv
  obtain ⟨_, hshown, _⟩ := compile_shows_cohort everyoneSurroundings everyoneArguments hp
    (some "all") none (by simp) plainSettings plainSettings .silence .silence []
    [.rows .nothing none]
  obtain ⟨c', ht, hread, hsent, _⟩ := hshown _ hv
  exact ⟨hp, c', hv.trans (congrArg Except.ok ht), ht ▸ hread, hsent⟩

end Program

end CohortQuery
