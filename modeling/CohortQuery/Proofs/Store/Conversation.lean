import CohortQuery.Proofs.Binder
import CohortQuery.Proofs.Store.Template
import CohortQuery.Store.Client

/-!
# Conversations

What is asked and replied during an exchange, whoever replies, up to its end or to where it breaks
off. An operation is serial if it sends the statements of a plan one after the other, each if the
one before went well.
-/

set_option autoImplicit false

namespace CohortQuery.Store

structure Turn where
  request : Request
  reply : Reply

namespace Exchange

variable {α β : Type}

/-- The turns of an exchange and what it ends with, if it does not break off. -/
inductive Talks : Exchange α → List Turn → Option α → Prop where
  | cut (x : Exchange α) : Talks x [] none
  | done (a : α) : Talks (.done a) [] (some a)
  | note (e : Log.Entry) {rest : Exchange α} {ts : List Turn} {o : Option α}
      (h : Talks rest ts o) : Talks (.note e rest) ts o
  | ask (r : Request) {next : Reply → Exchange α} (reply : Reply) {ts : List Turn} {o : Option α}
      (h : Talks (next reply) ts o) : Talks (.ask r next) (⟨r, reply⟩ :: ts) o

theorem talks_done (a : α) (ts : List Turn) (o : Option α) :
    (Exchange.done a).Talks ts o ↔ ts = [] ∧ (o = none ∨ o = some a) := by
  constructor
  · intro h
    cases h with
    | cut => exact ⟨rfl, .inl rfl⟩
    | done => exact ⟨rfl, .inr rfl⟩
  · rintro ⟨rfl, rfl | rfl⟩
    · exact .cut _
    · exact .done a

theorem talks_note (e : Log.Entry) (rest : Exchange α) (ts : List Turn) (o : Option α) :
    (Exchange.note e rest).Talks ts o ↔ rest.Talks ts o := by
  constructor
  · intro h
    cases h with
    | cut => exact .cut _
    | note _ h => exact h
  · exact .note e

theorem talks_ask (r : Request) (next : Reply → Exchange α) (ts : List Turn) (o : Option α) :
    (Exchange.ask r next).Talks ts o ↔ ts = [] ∧ o = none ∨
      ∃ reply rest, ts = ⟨r, reply⟩ :: rest ∧ (next reply).Talks rest o := by
  constructor
  · intro h
    cases h with
    | cut => exact .inl ⟨rfl, rfl⟩
    | ask _ reply h => exact .inr ⟨reply, _, rfl, h⟩
  · rintro (⟨rfl, rfl⟩ | ⟨reply, rest, rfl, h⟩)
    · exact .cut _
    · exact .ask r reply h

theorem talks_bind (x : Exchange α) (f : α → Exchange β) (ts : List Turn) (o : Option β) :
    (x.bind f).Talks ts o ↔ o = none ∧ x.Talks ts none ∨
      ∃ a before behind, ts = before ++ behind ∧ x.Talks before (some a) ∧
        (f a).Talks behind o := by
  induction x generalizing ts with
  | done a =>
    rw [Exchange.bind]
    simp only [talks_done]
    constructor
    · exact fun h => .inr ⟨a, [], ts, rfl, ⟨rfl, .inr rfl⟩, h⟩
    · rintro (⟨rfl, rfl, _⟩ | ⟨b, before, behind, rfl, ⟨rfl, hb⟩, h⟩)
      · exact .cut _
      · obtain rfl : b = a := by simpa using hb
        exact h
  | note e rest ih =>
    rw [Exchange.bind, talks_note, ih]
    simp only [talks_note]
  | ask r next ih =>
    rw [Exchange.bind, talks_ask]
    simp only [ih, talks_ask]
    constructor
    · rintro (⟨rfl, rfl⟩ | ⟨reply, rest, rfl, ⟨rfl, h⟩ | ⟨a, before, behind, rfl, h, hf⟩⟩)
      · exact .inl ⟨rfl, .inl ⟨rfl, trivial⟩⟩
      · exact .inl ⟨rfl, .inr ⟨reply, rest, rfl, h⟩⟩
      · exact .inr ⟨a, ⟨r, reply⟩ :: before, behind, rfl, .inr ⟨reply, before, rfl, h⟩, hf⟩
    · rintro (⟨rfl, ⟨rfl, _⟩ | ⟨reply, rest, rfl, h⟩⟩ |
        ⟨a, before, behind, rfl, ⟨_, hn⟩ | ⟨reply, rest, rfl, h⟩, hf⟩)
      · exact .inl ⟨rfl, rfl⟩
      · exact .inr ⟨reply, rest, rfl, .inl ⟨rfl, h⟩⟩
      · cases hn
      · exact .inr ⟨reply, rest ++ behind, rfl, .inr ⟨a, rest, behind, rfl, h, hf⟩⟩

theorem play_talks (otherwise : Reply) (x : Exchange α) (replies : List Reply) :
    ∃ ts, x.Talks ts (some (x.play otherwise replies).value) ∧
      ts.map Turn.request = (x.play otherwise replies).requests ∧
      ∀ (i : Nat) (t : Turn), ts[i]? = some t → t.reply = replies[i]?.getD otherwise := by
  induction x generalizing replies with
  | done a => exact ⟨[], .done a, rfl, by simp⟩
  | note e rest ih =>
    obtain ⟨ts, ht, hr, hi⟩ := ih replies
    exact ⟨ts, .note e ht, hr, hi⟩
  | ask r next ih =>
    cases replies with
    | nil =>
      obtain ⟨ts, ht, hr, hi⟩ := ih otherwise []
      refine ⟨⟨r, otherwise⟩ :: ts, .ask r otherwise ht, congrArg (r :: ·) hr, ?_⟩
      intro i t h
      cases i with
      | zero => simpa using (congrArg Turn.reply (Option.some.inj h)).symm
      | succ i => simpa using hi i t h
    | cons reply replies =>
      obtain ⟨ts, ht, hr, hi⟩ := ih reply replies
      refine ⟨⟨r, reply⟩ :: ts, .ask r reply ht, congrArg (r :: ·) hr, ?_⟩
      intro i t h
      cases i with
      | zero => simpa using (congrArg Turn.reply (Option.some.inj h)).symm
      | succ i => simpa using hi i t h

end Exchange

open Exchange (talks_ask talks_bind talks_done talks_note)

/-- A statement to be sent, and the replies after which the operation goes on. -/
structure Step where
  query : Query
  fetches : Bool
  good : Reply → Prop

/-- The request has the text that the statement stands for as a template, and its values. -/
structure Step.Sends (s : Step) (r : Request) : Prop where
  text : Template.expand s.query.sql = .ok r.sql
  params : r.params = s.query.params
  fetches : r.fetches = s.fetches

structure Step.Passes (s : Step) (t : Turn) : Prop where
  sends : s.Sends t.request
  good : s.good t.reply

/-- The first statements of a plan are sent in their order, none behind one that did not go
well. -/
inductive Follows : List Step → List Turn → Prop where
  | nil (plan : List Step) : Follows plan []
  | last {s : Step} {t : Turn} (plan : List Step) (h : s.Sends t.request) : Follows (s :: plan) [t]
  | next {s : Step} {plan : List Step} {t : Turn} {ts : List Turn} (h : s.Passes t)
      (ht : Follows plan ts) : Follows (s :: plan) (t :: ts)

/-- A plan is given up since the last reply is not good, or the client does not take the next
statement as a template. -/
inductive Abandoned : List Step → List Turn → Prop where
  | refused {s : Step} {f : ClientFault} (plan : List Step)
      (h : Template.expand s.query.sql = .error f) : Abandoned (s :: plan) []
  | last {s : Step} {t : Turn} (plan : List Step) (h : s.Sends t.request)
      (hg : ¬s.good t.reply) : Abandoned (s :: plan) [t]
  | next {s : Step} {plan : List Step} {t : Turn} {ts : List Turn} (h : s.Passes t)
      (ht : Abandoned plan ts) : Abandoned (s :: plan) (t :: ts)

theorem passes_follows {plan : List Step} {ts : List Turn} (h : List.Forall₂ Step.Passes plan ts) :
    Follows plan ts := by
  induction h with
  | nil => exact .nil _
  | cons h _ ih => exact .next h ih

theorem follows_left {p : List Step} {ts : List Turn} (h : Follows p ts) (q : List Step) :
    Follows (p ++ q) ts := by
  induction h with
  | nil plan => exact .nil _
  | last plan h => exact .last _ h
  | next h _ ih => exact .next h ih

theorem follows_right {p q : List Step} {before behind : List Turn}
    (h : List.Forall₂ Step.Passes p before) (hq : Follows q behind) :
    Follows (p ++ q) (before ++ behind) := by
  induction h with
  | nil => exact hq
  | cons h _ ih => exact .next h ih

theorem abandoned_left {p : List Step} {ts : List Turn} (h : Abandoned p ts) (q : List Step) :
    Abandoned (p ++ q) ts := by
  induction h with
  | refused plan h => exact .refused _ h
  | last plan h hg => exact .last _ h hg
  | next h _ ih => exact .next h ih

theorem abandoned_right {p q : List Step} {before behind : List Turn}
    (h : List.Forall₂ Step.Passes p before) (hq : Abandoned q behind) :
    Abandoned (p ++ q) (before ++ behind) := by
  induction h with
  | nil => exact hq
  | cons h _ ih => exact .next h ih

theorem follows_single (s : Step) (ts : List Turn) :
    Follows [s] ts ↔ ts = [] ∨ ∃ t, ts = [t] ∧ s.Sends t.request := by
  constructor
  · intro h
    cases h with
    | nil => exact .inl rfl
    | last _ h => exact .inr ⟨_, rfl, h⟩
    | next h ht =>
      cases ht
      exact .inr ⟨_, rfl, h.sends⟩
  · rintro (rfl | ⟨t, rfl, h⟩)
    · exact .nil _
    · exact .last [] h

theorem passes_single (s : Step) (ts : List Turn) :
    List.Forall₂ Step.Passes [s] ts ↔ ∃ t, ts = [t] ∧ s.Passes t := by
  constructor
  · intro h
    cases h with
    | cons h ht =>
      cases ht
      exact ⟨_, rfl, h⟩
  · rintro ⟨t, rfl, h⟩
    exact .cons h .nil

theorem abandoned_single (s : Step) (ts : List Turn) : Abandoned [s] ts ↔
    (∃ f, Template.expand s.query.sql = .error f ∧ ts = []) ∨
      ∃ t, ts = [t] ∧ s.Sends t.request ∧ ¬s.good t.reply := by
  constructor
  · intro h
    cases h with
    | refused _ h => exact .inl ⟨_, h, rfl⟩
    | last _ h hg => exact .inr ⟨_, rfl, h, hg⟩
    | next _ ht => cases ht
  · rintro (⟨f, h, rfl⟩ | ⟨t, rfl, h, hg⟩)
    · exact .refused [] h
    · exact .last [] h hg

/-- The operation sends the statements of a plan, and goes on just as far as it goes well. -/
structure Serial {ε α : Type} (plan : List Step) (x : ExceptT ε Exchange α) : Prop where
  follows {ts : List Turn} {o : Option (Except ε α)} (h : x.run.Talks ts o) : Follows plan ts
  passes {ts : List Turn} {a : α} (h : x.run.Talks ts (some (.ok a))) :
    List.Forall₂ Step.Passes plan ts
  abandoned {ts : List Turn} {e : ε} (h : x.run.Talks ts (some (.error e))) : Abandoned plan ts

section

variable {ε α β : Type}

theorem serial_pure (a : α) : Serial [] (pure a : ExceptT ε Exchange α) := by
  constructor
  · intro ts o h
    obtain ⟨rfl, _⟩ := (talks_done _ _ _).mp h
    exact .nil []
  · intro ts b h
    obtain ⟨rfl, _⟩ := (talks_done _ _ _).mp h
    exact .nil
  · intro ts e h
    obtain ⟨_, he⟩ := (talks_done _ _ _).mp h
    simp at he

theorem serial_note (e : Log.Entry) : Serial [] (Operation.note e) := by
  have hd {ts : List Turn} {o : Option (Except StoreError Unit)}
      (h : (Operation.note e).run.Talks ts o) :
      (pure () : Operation Unit).run.Talks ts o :=
    (talks_note _ _ _ _).mp h
  have hp := serial_pure (ε := StoreError) ()
  exact ⟨fun h => hp.follows (hd h), fun h => hp.passes (hd h), fun h => hp.abandoned (hd h)⟩

theorem talks_seq (x : ExceptT ε Exchange α) (f : α → ExceptT ε Exchange β) (ts : List Turn)
    (o : Option (Except ε β)) : (x >>= f).run.Talks ts o ↔
      o = none ∧ x.run.Talks ts none ∨
      (∃ e, (o = none ∨ o = some (.error e)) ∧ x.run.Talks ts (some (.error e))) ∨
      ∃ a before behind, ts = before ++ behind ∧ x.run.Talks before (some (.ok a)) ∧
        (f a).run.Talks behind o := by
  refine (talks_bind x.run (ExceptT.bindCont f) ts o).trans (or_congr Iff.rfl ?_)
  constructor
  · rintro ⟨r, before, behind, rfl, hx, hf⟩
    cases r with
    | error e =>
      obtain ⟨rfl, ho⟩ := (talks_done _ _ _).mp hf
      rw [List.append_nil]
      exact .inl ⟨e, ho, hx⟩
    | ok a => exact .inr ⟨a, before, behind, rfl, hx, hf⟩
  · rintro (⟨e, ho, hx⟩ | ⟨a, before, behind, rfl, hx, hf⟩)
    · exact ⟨.error e, ts, [], (List.append_nil ts).symm, hx, (talks_done _ _ _).mpr ⟨rfl, ho⟩⟩
    · exact ⟨.ok a, before, behind, rfl, hx, hf⟩

theorem serial_bind {p q : List Step} {x : ExceptT ε Exchange α} {f : α → ExceptT ε Exchange β}
    (hx : Serial p x) (hf : ∀ a, Serial q (f a)) : Serial (p ++ q) (x >>= f) := by
  constructor
  · intro ts o h
    rcases (talks_seq x f ts o).mp h with ⟨_, h⟩ | ⟨e, _, h⟩ | ⟨a, before, behind, rfl, hb, h⟩
    · exact follows_left (hx.follows h) q
    · exact follows_left (hx.follows h) q
    · exact follows_right (hx.passes hb) ((hf a).follows h)
  · intro ts b h
    rcases (talks_seq x f ts _).mp h with ⟨ho, _⟩ | ⟨e, ho, _⟩ | ⟨a, before, behind, rfl, hb, h⟩
    · cases ho
    · simp at ho
    · exact List.rel_append (hx.passes hb) ((hf a).passes h)
  · intro ts e h
    rcases (talks_seq x f ts _).mp h with ⟨ho, _⟩ | ⟨e, _, h⟩ | ⟨a, before, behind, rfl, hb, h⟩
    · cases ho
    · exact abandoned_left (hx.abandoned h) q
    · exact abandoned_right (hx.passes hb) ((hf a).abandoned h)

theorem serial_quiet {p : List Step} {x : ExceptT ε Exchange α} {f : α → ExceptT ε Exchange β}
    (hx : Serial p x) (hf : ∀ a, Serial [] (f a)) : Serial p (x >>= f) :=
  List.append_nil p ▸ serial_bind hx hf

theorem quiet_serial {q : List Step} {x : ExceptT ε Exchange α} {f : α → ExceptT ε Exchange β}
    (hx : Serial [] x) (hf : ∀ a, Serial q (f a)) : Serial q (x >>= f) :=
  serial_bind hx hf

def Call.asking (q : Query) (fetches : Bool) (f : Reply → Except ClientFault α) : Call α := do
  let sql ← lift (Template.expand q.sql)
  ExceptT.mk (.ask ⟨sql, q.params, fetches⟩ fun reply => .done (f reply))

theorem talks_asking (q : Query) (fetches : Bool) (f : Reply → Except ClientFault α)
    (ts : List Turn) (o : Option (Except ClientFault α)) :
    (Call.asking q fetches f).run.Talks ts o ↔ ts = [] ∧ o = none ∨
      (∃ e, Template.expand q.sql = .error e ∧ ts = [] ∧ o = some (.error e)) ∨
      ∃ sql reply, Template.expand q.sql = .ok sql ∧ ts = [⟨⟨sql, q.params, fetches⟩, reply⟩] ∧
        (o = none ∨ o = some (f reply)) := by
  unfold Call.asking
  cases Template.expand q.sql with
  | error e =>
    refine (talks_done _ _ _).trans ?_
    constructor
    · rintro ⟨rfl, rfl | rfl⟩
      · exact .inl ⟨rfl, rfl⟩
      · exact .inr (.inl ⟨e, rfl, rfl, rfl⟩)
    · rintro (⟨rfl, rfl⟩ | ⟨_, he, rfl, rfl⟩ | ⟨_, _, hs, _⟩)
      · exact ⟨rfl, .inl rfl⟩
      · cases he
        exact ⟨rfl, .inr rfl⟩
      · cases hs
  | ok sql =>
    refine (talks_ask _ _ _ _).trans (or_congr Iff.rfl ?_)
    constructor
    · rintro ⟨reply, rest, rfl, h⟩
      obtain ⟨rfl, ho⟩ := (talks_done _ _ _).mp h
      exact .inr ⟨sql, reply, rfl, rfl, ho⟩
    · rintro (⟨_, he, _⟩ | ⟨_, reply, hs, rfl, ho⟩)
      · cases he
      · cases hs
        exact ⟨reply, [], rfl, (talks_done _ _ _).mpr ⟨rfl, ho⟩⟩

theorem asking_then (q : Query) (fetches : Bool) (f : Reply → Except ClientFault α)
    (g : α → Except ClientFault β) :
    (do Call.lift (g (← Call.asking q fetches f))) =
      Call.asking q fetches fun reply => f reply >>= g := by
  unfold Call.asking
  cases Template.expand q.sql with
  | error e => rfl
  | ok sql =>
    have hn (reply : Reply) : (Exchange.done (f reply)).bind (ExceptT.bindCont (Call.lift ∘ g)) =
        .done (f reply >>= g) := by
      cases f reply <;> rfl
    exact congrArg (Exchange.ask _) (funext hn)

theorem serial_asking {q : Query} (fetches : Bool) {f : Reply → Except ClientFault α}
    {good : Reply → Prop} (hg : ∀ reply, (∃ a, f reply = .ok a) ↔ good reply) :
    Serial [⟨q, fetches, good⟩] (Call.asking q fetches f) := by
  constructor
  · intro ts o h
    rcases (talks_asking q fetches f ts o).mp h with ⟨rfl, _⟩ | ⟨_, _, rfl, _⟩ |
      ⟨sql, reply, hs, rfl, _⟩
    · exact .nil _
    · exact .nil _
    · exact .last [] ⟨hs, rfl, rfl⟩
  · intro ts a h
    rcases (talks_asking q fetches f ts _).mp h with ⟨_, ho⟩ | ⟨_, _, _, ho⟩ |
      ⟨sql, reply, hs, rfl, ho⟩
    · cases ho
    · simp at ho
    · have ha : f reply = .ok a := by simpa [eq_comm] using ho
      exact .cons ⟨⟨hs, rfl, rfl⟩, (hg reply).mp ⟨a, ha⟩⟩ .nil
  · intro ts e h
    rcases (talks_asking q fetches f ts _).mp h with ⟨_, ho⟩ | ⟨_, he, rfl, _⟩ |
      ⟨sql, reply, hs, rfl, ho⟩
    · cases ho
    · exact .refused [] he
    · have he : f reply = .error e := by simpa [eq_comm] using ho
      refine .last [] ⟨hs, rfl, rfl⟩ fun hb => ?_
      obtain ⟨a, ha⟩ := (hg reply).mpr hb
      rw [he] at ha
      cases ha

theorem talks_then (x : Exchange α) (g : α → β) (ts : List Turn) (o : Option β) :
    (x.bind fun a => .done (g a)).Talks ts o ↔ o = none ∧ x.Talks ts none ∨
      ∃ a, (o = none ∨ o = some (g a)) ∧ x.Talks ts (some a) := by
  rw [talks_bind]
  refine or_congr Iff.rfl (exists_congr fun a => ?_)
  constructor
  · rintro ⟨before, behind, rfl, h, hd⟩
    obtain ⟨rfl, ho⟩ := (talks_done _ _ _).mp hd
    exact ⟨ho, (List.append_nil before).symm ▸ h⟩
  · rintro ⟨ho, h⟩
    exact ⟨ts, [], (List.append_nil ts).symm, h, (talks_done _ _ _).mpr ⟨rfl, ho⟩⟩

theorem serial_wrapping {plan : List Step} {call : Call α} (h : Serial plan call)
    (wrap : ClientFault → StoreError) : Serial plan (Operation.wrapping wrap call) := by
  have ht {ts : List Turn} {o : Option (Except StoreError α)} :=
    talks_then call.run (Except.mapError wrap) ts o
  constructor
  · intro ts o hs
    rcases ht.mp hs with ⟨_, hs⟩ | ⟨_, _, hs⟩
    · exact h.follows hs
    · exact h.follows hs
  · intro ts a hs
    rcases ht.mp hs with ⟨ho, _⟩ | ⟨r, ho, hs⟩
    · cases ho
    · cases r with
      | error f => simp [Except.mapError] at ho
      | ok b => exact h.passes hs
  · intro ts e hs
    rcases ht.mp hs with ⟨ho, _⟩ | ⟨r, ho, hs⟩
    · cases ho
    · cases r with
      | error f => exact h.abandoned hs
      | ok b => simp [Except.mapError] at ho

theorem talks_wrapped {q : Query} (hv : Verbatim q.sql) (fetches : Bool)
    (f : Reply → Except ClientFault α) (wrap : ClientFault → StoreError) {ts : List Turn}
    {o : Option (Except StoreError α)}
    (h : (Operation.wrapping wrap (Call.asking q fetches f)).run.Talks ts o) :
    ts = [] ∧ o = none ∨ ∃ reply, ts = [⟨⟨q.sql, q.params, fetches⟩, reply⟩] ∧
      (o = none ∨ o = some ((f reply).mapError wrap)) := by
  have asked {p : Option (Except ClientFault α)}
      (h : (Call.asking q fetches f).run.Talks ts p) : ts = [] ∧ p = none ∨
        ∃ reply, ts = [⟨⟨q.sql, q.params, fetches⟩, reply⟩] ∧ (p = none ∨ p = some (f reply)) := by
    rcases (talks_asking q fetches f ts p).mp h with h | ⟨e, he, _⟩ | ⟨sql, reply, hs, rfl, ho⟩
    · exact .inl h
    · rw [expand_verbatim hv] at he
      cases he
    · rw [expand_verbatim hv] at hs
      obtain rfl := Except.ok.inj hs
      exact .inr ⟨reply, rfl, ho⟩
  rcases (talks_then _ _ ts o).mp h with ⟨rfl, hx⟩ | ⟨r, ho, hx⟩
  · rcases asked hx with ⟨rfl, _⟩ | ⟨reply, rfl, _⟩
    · exact .inl ⟨rfl, rfl⟩
    · exact .inr ⟨reply, rfl, .inl rfl⟩
  · rcases asked hx with ⟨_, hr⟩ | ⟨reply, rfl, hr | hr⟩
    · cases hr
    · cases hr
    · obtain rfl := Option.some.inj hr
      exact .inr ⟨reply, rfl, ho⟩

def streamed (kind : Table → Option (List α)) (r : Table × Option ClientFault) :
    Except ClientFault (List α × Option ClientFault) :=
  match kind r.1 with
  | some rows => .ok (rows, r.2)
  | none => .error (.badReply "Could not read columns header")

def wholeRows : List α × Option ClientFault → Except ClientFault (List α)
  | (rows, none) => .ok rows
  | (_, some f) => .error f

def firstRow? : List α × Option ClientFault → Except ClientFault (Option α)
  | (row :: _, _) => .ok (some row)
  | ([], none) => .ok none
  | ([], some f) => .error f

def soleRow : Option α → Except ClientFault α
  | some row => .ok row
  | none => .error .noRows

def firstRows (limit : Nat) : List α × Option ClientFault → Except ClientFault (List α)
  | (rows, none) => .ok (rows.take limit)
  | (rows, some f) => if limit ≤ rows.length then .ok (rows.take limit) else .error f

def drained : Table × Option ClientFault → Except ClientFault Unit
  | (_, none) => .ok ()
  | (_, some f) => .error f

theorem execute_asking (q : Query) :
    Call.execute q = Call.asking q false fun reply => reply.table? >>= drained := by
  refine Eq.trans ?_ (asking_then q false Reply.table? drained)
  refine congrArg (Call.send q.sql q.params false >>= ·) (funext fun (_, fault) => ?_)
  cases fault <;> rfl

theorem stream_asking (kind : Table → Option (List α)) (q : Query) :
    Call.stream kind q = Call.asking q true fun reply => reply.table? >>= streamed kind := by
  refine Eq.trans ?_ (asking_then q true Reply.table? (streamed kind))
  refine congrArg (Call.send q.sql q.params true >>= ·) (funext fun (table, fault) => ?_)
  unfold streamed
  dsimp only
  cases kind table <;> rfl

theorem fetch_all_asking (kind : Table → Option (List α)) (q : Query) :
    Call.fetchAll kind q = Call.asking q true fun reply =>
      reply.table? >>= streamed kind >>= wholeRows := by
  refine Eq.trans ?_ (asking_then q true _ wholeRows)
  rw [← stream_asking]
  refine congrArg (Call.stream kind q >>= ·) (funext fun (_, fault) => ?_)
  cases fault <;> rfl

theorem fetch_optional_asking (kind : Table → Option (List α)) (q : Query) :
    Call.fetchOptional kind q = Call.asking q true fun reply =>
      reply.table? >>= streamed kind >>= firstRow? := by
  refine Eq.trans ?_ (asking_then q true _ firstRow?)
  rw [← stream_asking]
  refine congrArg (Call.stream kind q >>= ·) (funext fun (rows, fault) => ?_)
  cases rows <;> cases fault <;> rfl

theorem fetch_one_asking (kind : Table → Option (List α)) (q : Query) :
    Call.fetchOne kind q = Call.asking q true fun reply =>
      reply.table? >>= streamed kind >>= firstRow? >>= soleRow := by
  refine Eq.trans ?_ (asking_then q true _ soleRow)
  rw [← fetch_optional_asking]
  refine congrArg (Call.fetchOptional kind q >>= ·) (funext fun row => ?_)
  cases row <;> rfl

theorem collect_next (missing : Nat) (row : α) (rows : List α) (fault : Option ClientFault) :
    Cursor.collect (missing + 1) ⟨row :: rows, fault⟩ =
      (Cursor.collect missing ⟨rows, fault⟩).map (row :: ·) := by
  rw [Cursor.collect]
  cases hc : Cursor.collect missing ⟨rows, fault⟩ <;>
    simp [Cursor.next, hc, bind, Except.bind, pure, Except.pure, Except.map]

/-- A fault behind the last row that is missing is not met. -/
theorem collect_first (missing : Nat) (rows : List α) (fault : Option ClientFault) :
    Cursor.collect missing ⟨rows, fault⟩ = firstRows missing (rows, fault) := by
  induction missing generalizing rows with
  | zero => cases fault <;> simp [Cursor.collect, firstRows]
  | succ missing ih =>
    cases rows with
    | nil => cases fault <;> rfl
    | cons row rows =>
      rw [collect_next, ih]
      cases fault with
      | none => rfl
      | some f => by_cases hl : missing ≤ rows.length <;> simp [firstRows, Except.map, hl]

theorem fetch_first_asking {limit : Nat} (h : limit ≠ 0) (kind : Table → Option (List α))
    (q : Query) : Call.fetchFirst limit kind q = Call.asking q true fun reply =>
      reply.table? >>= streamed kind >>= firstRows limit := by
  refine Eq.trans ?_ (asking_then q true _ (firstRows limit))
  rw [← stream_asking, Call.fetchFirst, if_neg h]
  refine congrArg (Call.stream kind q >>= ·) (funext fun (rows, fault) => ?_)
  exact congrArg Call.lift (collect_first limit rows fault)

theorem talks_lift (r : Except StoreError α) (ts : List Turn) (o : Option (Except StoreError α)) :
    (Operation.lift r).run.Talks ts o ↔ ts = [] ∧ (o = none ∨ o = some r) :=
  talks_done _ _ _

theorem talks_timed_out (seconds : Nat) (ts : List Turn) (o : Option (Except StoreError α)) :
    (Operation.timedOut seconds : Operation α).run.Talks ts o ↔
      ts = [] ∧ (o = none ∨ o = some (.error (.timeout seconds))) :=
  (talks_note _ _ _ _).trans (talks_done _ _ _)

theorem talks_in_time {seconds : Nat} {x : Operation α} {ts : List Turn}
    {o : Option (Except StoreError α)}
    (h : (if seconds = 0 then Operation.timedOut seconds else x).run.Talks ts o) :
    seconds = 0 ∧ ts = [] ∧ (o = none ∨ o = some (.error (.timeout seconds))) ∨
      seconds ≠ 0 ∧ x.run.Talks ts o := by
  by_cases hz : seconds = 0
  · rw [if_pos hz, talks_timed_out] at h
    exact .inl ⟨hz, h⟩
  · rw [if_neg hz] at h
    exact .inr ⟨hz, h⟩

theorem talks_limited (seconds : Nat) (call : Call α) {ts : List Turn}
    {o : Option (Except StoreError α)} (h : (Operation.within seconds call).run.Talks ts o) :
    o = none ∧ call.run.Talks ts none ∨ ∃ r, call.run.Talks ts (some r) ∧
      (o = none ∨ (∃ a, r = .ok a ∧ seconds ≠ 0 ∧ o = some (.ok a)) ∨
        ∃ e, ((∃ f, r = .error f) ∨ seconds = 0) ∧ o = some (.error e)) := by
  have ran {us : List Turn} {p : Option (Except StoreError (Except ClientFault α))} :=
    talks_then call.run (Except.ok (ε := StoreError)) us p
  rcases (talks_seq _ _ ts o).mp h with ⟨ho, h⟩ | ⟨e, _, h⟩ | ⟨r, before, behind, rfl, h, hk⟩
  · rcases ran.mp h with ⟨_, h⟩ | ⟨r, _, h⟩
    · exact .inl ⟨ho, h⟩
    · exact .inr ⟨r, h, .inl ho⟩
  · rcases ran.mp h with ⟨ho, _⟩ | ⟨r, ho, _⟩
    · cases ho
    · simp at ho
  · have hr : call.run.Talks before (some r) := by
      rcases ran.mp h with ⟨ho, _⟩ | ⟨s, ho, h⟩
      · cases ho
      · obtain rfl : r = s := by simpa using ho
        exact h
    have ended {e : StoreError} (he : (∃ f, r = .error f) ∨ seconds = 0)
        (hd : behind = [] ∧ (o = none ∨ o = some (.error e))) :
        behind = [] ∧ (o = none ∨ (∃ a, r = .ok a ∧ seconds ≠ 0 ∧ o = some (.ok a)) ∨
          ∃ e, ((∃ f, r = .error f) ∨ seconds = 0) ∧ o = some (.error e)) :=
      ⟨hd.1, hd.2.imp_right fun ho => .inr ⟨e, he, ho⟩⟩
    have hs : behind = [] ∧ (o = none ∨ (∃ a, r = .ok a ∧ seconds ≠ 0 ∧ o = some (.ok a)) ∨
        ∃ e, ((∃ f, r = .error f) ∨ seconds = 0) ∧ o = some (.error e)) := by
      match r with
      | .ok a =>
        rcases talks_in_time (x := pure a) hk with ⟨hz, hd⟩ | ⟨hz, hd⟩
        · exact ended (.inr hz) hd
        · obtain ⟨hb, ho⟩ := (talks_done _ _ _).mp hd
          exact ⟨hb, ho.imp_right fun ho => .inl ⟨a, rfl, hz, ho⟩⟩
      | .error .silence => exact ended (.inl ⟨_, rfl⟩) ((talks_timed_out _ _ _).mp hk)
      | .error .unboundArgument | .error .unboundFields =>
        exact ended (.inl ⟨_, rfl⟩) ((talks_lift _ _ _).mp hk)
      | .error .noRows | .error (.badReply _) | .error (.unreachable _) =>
        rcases talks_in_time (x := Operation.lift (.error (.client _))) hk with
          ⟨hz, hd⟩ | ⟨_, hd⟩
        · exact ended (.inr hz) hd
        · exact ended (.inl ⟨_, rfl⟩) ((talks_lift _ _ _).mp hd)
    obtain ⟨rfl, ho⟩ := hs
    rw [List.append_nil]
    exact .inr ⟨r, hr, ho⟩

def Step.within (seconds : Nat) (s : Step) : Step :=
  { s with good := fun reply => seconds ≠ 0 ∧ s.good reply }

theorem serial_within {s : Step} {call : Call α} (h : Serial [s] call) (seconds : Nat) :
    Serial [s.within seconds] (Operation.within seconds call) := by
  constructor
  · intro ts o ht
    have hf : Follows [s] ts := by
      rcases talks_limited seconds call ht with ⟨_, ht⟩ | ⟨_, ht, _⟩ <;> exact h.follows ht
    rcases (follows_single s ts).mp hf with rfl | ⟨t, rfl, hs⟩
    · exact .nil _
    · exact .last [] ⟨hs.text, hs.params, hs.fetches⟩
  · intro ts a ht
    rcases talks_limited seconds call ht with ⟨ho, _⟩ | ⟨r, ht, ho | ⟨b, rfl, hz, _⟩ | ⟨e, _, ho⟩⟩
    · cases ho
    · cases ho
    · obtain ⟨t, rfl, hp⟩ := (passes_single s ts).mp (h.passes ht)
      exact .cons ⟨⟨hp.sends.text, hp.sends.params, hp.sends.fetches⟩, hz, hp.good⟩ .nil
    · cases ho
  · intro ts e ht
    rcases talks_limited seconds call ht with ⟨ho, _⟩ | ⟨r, ht, ho | ⟨b, _, _, ho⟩ | ⟨_, hr, _⟩⟩
    · cases ho
    · cases ho
    · cases ho
    · cases r with
      | error f =>
        rcases (abandoned_single s ts).mp (h.abandoned ht) with ⟨f, hf, rfl⟩ | ⟨t, rfl, hs, hg⟩
        · exact .refused [] hf
        · exact .last [] ⟨hs.text, hs.params, hs.fetches⟩ fun hg' => hg hg'.2
      | ok a =>
        have hz : seconds = 0 := by simpa using hr
        obtain ⟨t, rfl, hp⟩ := (passes_single s ts).mp (h.passes ht)
        exact .last [] ⟨hp.sends.text, hp.sends.params, hp.sends.fetches⟩ fun hg => hg.1 hz

def Reply.IsWhole (reply : Reply) : Prop :=
  ∃ table, reply = .rows table none

/-- The reply has rows of a kind, and `P` holds of them and of the fault that ends them. -/
def Reply.Gives (kind : Table → Option (List α)) (P : List α → Option ClientFault → Prop)
    (reply : Reply) : Prop :=
  ∃ table rows fault, reply = .rows table fault ∧ kind table = some rows ∧ P rows fault

namespace Step

variable (kind : Table → Option (List α)) (q : Query)

def all : Step :=
  ⟨q, true, Reply.Gives kind fun _ fault => fault = none⟩

def first (limit : Nat) : Step :=
  ⟨q, true, Reply.Gives kind fun rows fault => fault = none ∨ limit ≤ rows.length⟩

/-- The first row is needed, or that there is none. -/
def optional : Step :=
  ⟨q, true, Reply.Gives kind fun rows fault => rows = [] → fault = none⟩

def one : Step :=
  ⟨q, true, Reply.Gives kind fun rows _ => rows ≠ []⟩

def execute : Step :=
  ⟨q, false, Reply.IsWhole⟩

end Step

theorem table_ok (reply : Reply) (r : Table × Option ClientFault) :
    reply.table? = .ok r ↔ reply = .rows r.1 r.2 := by
  cases reply <;> simp [Reply.table?, Prod.ext_iff]

theorem streamed_ok (kind : Table → Option (List α)) (reply : Reply)
    (r : List α × Option ClientFault) : (reply.table? >>= streamed kind) = .ok r ↔
      ∃ table, reply = .rows table r.2 ∧ kind table = some r.1 := by
  simp only [Binder.except_bind, table_ok]
  constructor
  · rintro ⟨⟨table, fault⟩, rfl, hk⟩
    unfold streamed at hk
    split at hk
    next rows hr =>
      obtain rfl := Except.ok.inj hk
      exact ⟨table, rfl, hr⟩
    next => cases hk
  · rintro ⟨table, rfl, hk⟩
    exact ⟨(table, r.2), rfl, by simp only [streamed, hk]⟩

theorem drained_whole (reply : Reply) :
    (∃ u, (reply.table? >>= drained) = .ok u) ↔ reply.IsWhole := by
  simp only [Binder.except_bind, table_ok]
  constructor
  · rintro ⟨_, ⟨table, fault⟩, rfl, hd⟩
    cases fault with
    | none => exact ⟨table, rfl⟩
    | some f => cases hd
  · rintro ⟨table, rfl⟩
    exact ⟨(), (table, none), rfl, rfl⟩

section

variable (kind : Table → Option (List α))

theorem streamed_gives {g : List α × Option ClientFault → Except ClientFault β}
    {P : List α → Option ClientFault → Prop}
    (hp : ∀ rows fault, (∃ b, g (rows, fault) = .ok b) ↔ P rows fault) (reply : Reply) :
    (∃ b, (reply.table? >>= streamed kind >>= g) = .ok b) ↔ reply.Gives kind P := by
  constructor
  · rintro ⟨b, hb⟩
    obtain ⟨r, hr, hg⟩ := (Binder.except_bind _ _ _).mp hb
    obtain ⟨table, rfl, hk⟩ := (streamed_ok kind _ r).mp hr
    exact ⟨table, r.1, r.2, rfl, hk, (hp _ _).mp ⟨b, hg⟩⟩
  · rintro ⟨table, rows, fault, rfl, hk, h⟩
    obtain ⟨b, hb⟩ := (hp _ _).mpr h
    exact ⟨b, (Binder.except_bind _ _ _).mpr
      ⟨(rows, fault), (streamed_ok kind _ _).mpr ⟨table, rfl, hk⟩, hb⟩⟩

theorem whole_gives (reply : Reply) :
    (∃ rows, (reply.table? >>= streamed kind >>= wholeRows) = .ok rows) ↔
      reply.Gives kind fun _ fault => fault = none := by
  refine streamed_gives kind (fun rows fault => ?_) reply
  cases fault <;> simp [wholeRows]

theorem first_gives (limit : Nat) (reply : Reply) :
    (∃ rows, (reply.table? >>= streamed kind >>= firstRows limit) = .ok rows) ↔
      reply.Gives kind fun rows fault => fault = none ∨ limit ≤ rows.length := by
  refine streamed_gives kind (fun rows fault => ?_) reply
  cases fault with
  | none => simp [firstRows]
  | some f =>
    by_cases hl : limit ≤ rows.length <;> simp [firstRows, hl]

theorem optional_gives (reply : Reply) :
    (∃ row, (reply.table? >>= streamed kind >>= firstRow?) = .ok row) ↔
      reply.Gives kind fun rows fault => rows = [] → fault = none := by
  refine streamed_gives kind (fun rows fault => ?_) reply
  cases rows <;> cases fault <;> simp [firstRow?]

theorem one_gives (reply : Reply) :
    (∃ row, (reply.table? >>= streamed kind >>= firstRow? >>= soleRow) = .ok row) ↔
      reply.Gives kind fun rows _ => rows ≠ [] := by
  have hs : (reply.table? >>= streamed kind >>= firstRow? >>= soleRow) =
      (reply.table? >>= streamed kind >>= fun r => firstRow? r >>= soleRow) := by
    cases reply.table? >>= streamed kind <;> rfl
  rw [hs]
  refine streamed_gives kind (fun rows fault => ?_) reply
  cases rows <;> cases fault <;> simp [firstRow?, soleRow, bind, Except.bind]

variable (q : Query)

theorem serial_execute : Serial [.execute q] (Call.execute q) := by
  rw [execute_asking]
  exact serial_asking false drained_whole

theorem serial_fetch_all : Serial [.all kind q] (Call.fetchAll kind q) := by
  rw [fetch_all_asking]
  exact serial_asking true (whole_gives kind)

theorem serial_fetch_one : Serial [.one kind q] (Call.fetchOne kind q) := by
  rw [fetch_one_asking]
  exact serial_asking true (one_gives kind)

theorem serial_fetch_first {limit : Nat} (h : limit ≠ 0) :
    Serial [.first kind q limit] (Call.fetchFirst limit kind q) := by
  rw [fetch_first_asking h]
  exact serial_asking true (first_gives kind limit)

end

end

end CohortQuery.Store
