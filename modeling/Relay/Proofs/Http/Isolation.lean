import Relay.Proofs.Http.Peers
import Relay.Proofs.Search.Answering
import Relay.Proofs.Search.Endings

/-!
# Isolation of clients

What one peer is answered to its thread requests and its searches is decided by these requests
and its registration, and nobody else is told anything of its snapshots: `client_isolation`.
-/

namespace Relay

open Cafe (Sees Masks Agrees)

/-- A cafe with requests under way, among them thread requests of one peer that have found their
client and not written yet. -/
structure Visit where
  exchange : Exchange
  pending : List Write := []

namespace Visit

inductive Event where
  | ask (now : Instant) (r : Request)
  /-- A thread request of the peer finds its client. -/
  | look (now : Instant) (segment : String) (r : Request)
  /-- The thread request at a place writes. -/
  | write (place : Nat)
  /-- Anything else goes on. -/
  | beside (e : Exchange.Event)

def start (config : Config) : Visit := { exchange := .start config }

def cafe (v : Visit) : Cafe := v.exchange.cafe

def withCafe (v : Visit) (c : Cafe) : Visit := { v with exchange := v.exchange.withCafe c }

def step (p : String) (v : Visit) : Event → Option Answer × Visit
  | .ask now r =>
    let (a, c) := v.cafe.answer now r
    (some a, v.withCafe c)
  | .look now segment r =>
    match v.cafe.look now p segment r with
    | .error a => (some a.anyOrigin, v)
    | .ok w => (none, { v with pending := v.pending ++ [w] })
  | .write place =>
    match v.pending[place]? with
    | none => (none, v)
    | some w =>
      let (a, c) := v.cafe.finish w
      (some a.anyOrigin, { v.withCafe c with pending := v.pending.eraseIdx place })
  | .beside e => (none, { v with exchange := v.exchange.step e })

def run (p : String) : Visit → List Event → Visit
  | v, [] => v
  | v, e :: rest => run p (v.step p e).2 rest

def trace (p : String) : Visit → List Event → List (Event × Option Answer)
  | _, [] => []
  | v, e :: rest => (e, (v.step p e).1) :: trace p (v.step p e).2 rest

namespace Event

/-- An event on which the peer's threads depend. -/
def isOwn (p : String) (config : Config) : Event → Bool
  | .ask now r => r.isOwn p config now
  | .look _ _ _ | .write _ => true
  | .beside _ => false

/-- What goes on beside the peer's requests has nothing to do with its registration and threads,
and nobody breaks off while holding a lock. -/
def Spares (p : String) : Event → Prop
  | .beside e => e.Spares p
  | _ => True

/-- Nobody searches as the peer. -/
def Silent (p : String) : Event → Prop
  | .ask _ r => r.searchesAs p = false
  | _ => True

end Event

/-- The locks can be taken, and the thread requests of the peer are all that is under way about
its threads. -/
structure Calm (p : String) (v : Visit) : Prop where
  exchange : v.exchange.Calm p
  pending : ∀ w ∈ v.pending, w.client = p

variable {p : String} {config : Config} {v v' : Visit} {e : Event} {c' : Cafe}

theorem calm_start (p : String) (config : Config) : (start config).Calm p where
  exchange := Exchange.calm_start config
  pending w mem := by cases mem

theorem Calm.withCafe (calm : v.Calm p) (steady : Cafe.Steady v.cafe c') : (v.withCafe c').Calm p :=
  ⟨⟨steady.registry.trans calm.exchange.registry, steady.mailbox.trans calm.exchange.mailbox,
    calm.exchange.tasks⟩, calm.pending⟩

theorem calm_step (calm : v.Calm p) (spares : e.Spares p) : (v.step p e).2.Calm p := by
  cases e with
  | ask now r => exact calm.withCafe (Cafe.steady_answer now r v.cafe)
  | look now segment r =>
    simp only [step]
    cases found : v.cafe.look now p segment r with
    | error a => exact calm
    | ok w =>
      refine ⟨calm.exchange, fun w' mem => ?_⟩
      obtain mem | mem := List.mem_append.1 mem
      · exact calm.pending w' mem
      · rw [List.mem_singleton.1 mem]
        exact Cafe.client_of_look found
  | write place =>
    simp only [step]
    cases v.pending[place]? with
    | none => exact calm
    | some w =>
      have kept := calm.withCafe (Cafe.steady_finish w v.cafe)
      exact ⟨kept.exchange, fun w' mem => calm.pending w' (List.mem_of_mem_eraseIdx mem)⟩
  | beside e => exact ⟨Exchange.calm_step calm.exchange spares, calm.pending⟩

theorem config_step (calm : v.Calm p) (spares : e.Spares p) :
    (v.step p e).2.cafe.config = v.cafe.config := by
  cases e with
  | ask now r => exact (Cafe.steady_answer now r v.cafe).config
  | look now segment r =>
    simp only [step]
    cases v.cafe.look now p segment r <;> rfl
  | write place =>
    simp only [step]
    cases v.pending[place]? with
    | none => rfl
    | some w => exact (Cafe.steady_finish w v.cafe).config
  | beside e => exact (Exchange.sees_step calm.exchange spares).config

/-! ### What the peer sees -/

structure Alike (p : String) (config : Config) (v v' : Visit) : Prop where
  config : v.cafe.config = config
  calm : v.Calm p
  calm' : v'.Calm p
  sees : Sees p v.cafe v'.cafe
  pending : v'.pending = v.pending

theorem other_step (alike : Alike p config v v') (spares : e.Spares p)
    (other : e.isOwn p config = false) : Alike p config (v.step p e).2 v' := by
  have config := (config_step alike.calm spares).trans alike.config
  have calm := calm_step alike.calm spares
  cases e with
  | ask now r =>
    rw [← alike.config] at other
    exact ⟨config, calm, alike.calm', (Cafe.sees_answer other).symm.trans alike.sees, alike.pending⟩
  | look now segment r | write place => cases other
  | beside e =>
    exact ⟨config, calm, alike.calm',
      (Exchange.sees_step alike.calm.exchange spares).symm.trans alike.sees, alike.pending⟩

theorem own_answer (alike : Alike p config v v') (own : e.isOwn p config = true) :
    (v'.step p e).1 = (v.step p e).1 ∧ Sees p (v.step p e).2.cafe (v'.step p e).2.cafe ∧
      (v'.step p e).2.pending = (v.step p e).2.pending := by
  cases e with
  | ask now r =>
    rw [← alike.config] at own
    obtain ⟨same, sees⟩ := Cafe.agrees_answer own alike.sees
    exact ⟨congrArg some same, sees, alike.pending⟩
  | look now segment r =>
    simp only [step, Cafe.look_congr alike.sees.config alike.sees.registered]
    cases v.cafe.look now p segment r with
    | error a => exact ⟨rfl, alike.sees, alike.pending⟩
    | ok w => exact ⟨rfl, alike.sees, congrArg (· ++ [w]) alike.pending⟩
  | write place =>
    simp only [step, alike.pending]
    cases found : v.pending[place]? with
    | none => exact ⟨rfl, alike.sees, alike.pending⟩
    | some w =>
      have whose := alike.calm.pending w (List.mem_of_getElem? found)
      obtain ⟨same, sees⟩ := Cafe.agrees_finish whose alike.sees
      exact ⟨congrArg (fun a => some a.anyOrigin) same, sees, rfl⟩
  | beside e => cases own

theorem own_step (alike : Alike p config v v') (spares : e.Spares p)
    (own : e.isOwn p config = true) :
    (v'.step p e).1 = (v.step p e).1 ∧ Alike p config (v.step p e).2 (v'.step p e).2 := by
  obtain ⟨same, sees, pending⟩ := own_answer alike own
  exact ⟨same, (config_step alike.calm spares).trans alike.config, calm_step alike.calm spares,
    calm_step alike.calm' spares, sees, pending⟩

/-- The peer's own requests are answered as they are without anyone else, and leave the same. -/
theorem alike_run {es : List Event} (alike : Alike p config v v')
    (spares : ∀ e ∈ es, e.Spares p) :
    (v.trace p es).filter (·.1.isOwn p config) = v'.trace p (es.filter (·.isOwn p config)) ∧
      Alike p config (v.run p es) (v'.run p (es.filter (·.isOwn p config))) := by
  induction es generalizing v v' with
  | nil => exact ⟨rfl, alike⟩
  | cons e es ih =>
    have here := spares e List.mem_cons_self
    have spares' : ∀ e ∈ es, e.Spares p := fun e mem => spares e (List.mem_cons_of_mem _ mem)
    rw [trace, List.filter_cons, List.filter_cons]
    cases own : e.isOwn p config with
    | true =>
      obtain ⟨same, after⟩ := own_step alike here own
      obtain ⟨traces, ends⟩ := ih after spares'
      simp only [if_true, trace, run, same, traces]
      exact ⟨trivial, ends⟩
    | false =>
      -- only the first visit moves, to where the peer still finds what is in the second
      simp only [Bool.false_eq_true, if_false]
      exact ih (other_step alike here own) spares'

/-! ### What others see -/

theorem masks_step (calm : v.Calm p) (silent : e.Silent p) (masks : Masks p v.cafe c') :
    ((v.withCafe c').step p e).1 = (v.step p e).1 ∧
      ∃ c'', ((v.withCafe c').step p e).2 = (v.step p e).2.withCafe c'' ∧
        Masks p (v.step p e).2.cafe c'' := by
  cases e with
  | ask now r =>
    obtain ⟨same, after⟩ := Cafe.blind_answer now silent masks
    exact ⟨congrArg some same, _, rfl, after⟩
  | look now segment r =>
    have same : (v.withCafe c').cafe.look now p segment r = v.cafe.look now p segment r :=
      Cafe.look_congr masks.config (masks.registered p) now segment r
    simp only [step, same]
    cases v.cafe.look now p segment r <;> exact ⟨rfl, c', rfl, masks⟩
  | write place =>
    have there : (v.withCafe c').pending[place]? = v.pending[place]? := rfl
    simp only [step, there]
    cases v.pending[place]? with
    | none => exact ⟨rfl, c', rfl, masks⟩
    | some w =>
      obtain ⟨same, after⟩ := Cafe.blind_finish w masks
      exact ⟨congrArg (fun a => some a.anyOrigin) same, _, rfl, after⟩
  | beside e =>
    obtain ⟨c'', goes, after⟩ := Exchange.masks_step (e := e) calm.exchange masks
    exact ⟨rfl, c'', congrArg (fun exchange => { v with exchange }) goes, after⟩

theorem masks_run {es : List Event} (calm : v.Calm p) (spares : ∀ e ∈ es, e.Spares p)
    (silent : ∀ e ∈ es, e.Silent p) (masks : Masks p v.cafe c') :
    (v.withCafe c').trace p es = v.trace p es ∧
      ∃ c'', (v.withCafe c').run p es = (v.run p es).withCafe c'' ∧
        Masks p (v.run p es).cafe c'' := by
  induction es generalizing v c' with
  | nil => exact ⟨rfl, c', rfl, masks⟩
  | cons e es ih =>
    obtain ⟨same, c'', goes, after⟩ := masks_step calm (silent e List.mem_cons_self) masks
    obtain ⟨traces, ends⟩ := ih (calm_step calm (spares e List.mem_cons_self))
      (fun e mem => spares e (List.mem_cons_of_mem _ mem))
      (fun e mem => silent e (List.mem_cons_of_mem _ mem)) after
    rw [trace, trace, run, run, same, goes]
    exact ⟨congrArg _ traces, ends⟩

/-! ### Isolation -/

/-- Finding the client and writing, with nothing in between, is the request at one go. -/
theorem run_parts {r : Request} {id : String} (known : Route.ofPath? r.path = some (.thread id))
    (taken : r.method ∈ (Route.thread id).methods) (given : r.peer? = some p) (now : Instant)
    (v : Visit) :
    v.run p [.look now id r, .write v.pending.length] = v.run p [.ask now r] ∧
      (v.trace p [.look now id r, .write v.pending.length]).filterMap Prod.snd =
        (v.trace p [.ask now r]).filterMap Prod.snd := by
  have whole := Cafe.answer_thread known taken given now v.cafe
  simp only [run, trace, List.filterMap_cons, List.filterMap_nil]
  cases found : v.cafe.look now p id r with
  | error a =>
    rw [found] at whole
    have looked : v.step p (.look now id r) = (some a.anyOrigin, v) := by
      simp only [step, found]
    have wrote : v.step p (.write v.pending.length) = (none, v) := by
      simp only [step, List.getElem?_eq_none (Nat.le_refl _)]
    have asked : v.step p (.ask now r) = (some a.anyOrigin, v) := by
      simp only [step, whole]
      rfl
    rw [looked, wrote, asked]
    exact ⟨rfl, rfl⟩
  | ok w =>
    rw [found] at whole
    let c := (v.cafe.finish w).2
    have looked : v.step p (.look now id r) = (none, { v with pending := v.pending ++ [w] }) := by
      simp only [step, found]
    have wrote : ({ v with pending := v.pending ++ [w] } : Visit).step p
        (.write v.pending.length) = (some (v.cafe.finish w).1.anyOrigin, v.withCafe c) := by
      simp only [step, List.getElem?_concat_length, Nat.sub_self,
        List.eraseIdx_append_of_length_le (Nat.le_refl _)]
      simp [withCafe, cafe, c]
    have asked : v.step p (.ask now r) =
        (some (v.cafe.finish w).1.anyOrigin, v.withCafe c) := by
      simp only [step, whole, c]
    rw [looked, wrote, asked]
    exact ⟨rfl, rfl⟩

def ownOf (p : String) (config : Config) (es : List Event) : List Event :=
  es.filter (·.isOwn p config)

def ownAnswers (p : String) (v : Visit) (es : List Event) : List (Event × Option Answer) :=
  (v.trace p es).filter (·.1.isOwn p v.cafe.config)

theorem own_decides {es es' : List Event} (calm : v.Calm p) (calm' : v'.Calm p)
    (sees : Sees p v.cafe v'.cafe) (pending : v'.pending = v.pending)
    (spares : ∀ e ∈ es, e.Spares p) (spares' : ∀ e ∈ es', e.Spares p)
    (same : ownOf p v.cafe.config es = ownOf p v.cafe.config es') :
    v.ownAnswers p es = v'.ownAnswers p es' ∧ Sees p (v.run p es).cafe (v'.run p es').cafe := by
  -- both runs are compared with the second visit when it is left to the peer alone
  obtain ⟨traces, ends⟩ := alike_run ⟨rfl, calm, calm', sees, pending⟩ spares
  have alone : Alike p v.cafe.config v' v' := ⟨sees.config, calm', calm', Sees.refl p _, rfl⟩
  obtain ⟨traces', ends'⟩ := alike_run alone spares'
  unfold ownOf at same
  rw [same] at traces ends
  rw [ownAnswers, ownAnswers, sees.config]
  exact ⟨traces.trans traces'.symm, ends.sees.trans ends'.sees.symm⟩

/-- What a peer is answered to its own requests is decided by them, however they are mixed with
those of others. These do not change what it lists, and unless someone searches as the peer they
are all answered as if it had other snapshots. The body of a search does not depend on what goes
on while it is written. -/
theorem client_isolation {p : String} {v : Visit} (calm : v.Calm p) :
    (∀ (v' : Visit) (es es' : List Event), v'.Calm p → Sees p v.cafe v'.cafe →
      v'.pending = v.pending → (∀ e ∈ es, e.Spares p) → (∀ e ∈ es', e.Spares p) →
      ownOf p v.cafe.config es = ownOf p v.cafe.config es' →
      v.ownAnswers p es = v'.ownAnswers p es' ∧
        Sees p (v.run p es).cafe (v'.run p es').cafe) ∧
    (∀ es : List Event, (∀ e ∈ es, e.Spares p) → ownOf p v.cafe.config es = [] →
      (v.run p es).cafe.snapshotsOf p = v.cafe.snapshotsOf p) ∧
    (∀ (c' : Cafe) (es : List Event), Masks p v.cafe c' → (∀ e ∈ es, e.Spares p) →
      (∀ e ∈ es, e.Silent p) →
      (v.withCafe c').trace p es = v.trace p es ∧
        ∃ c'', (v.withCafe c').run p es = (v.run p es).withCafe c'' ∧
          Masks p (v.run p es).cafe c'') ∧
    ∀ (c : Cafe) (query : Envelope) (events : List Response.Event),
      Response.Undisturbed events →
      let begun := Response.start c.config.queryBuffer (c.emissions p query)
      (begun.run events).isOpen = false →
      (begun.run events).state = (c.search p query).state ∧
        (begun.run events).frames = (c.search p query).frames := by
  refine ⟨?_, ?_, ?_, ?_⟩
  · intro v' es es' calm' sees pending spares spares' same
    exact own_decides calm calm' sees pending spares spares' same
  · intro es spares others
    have none : ∀ e ∈ ([] : List Event), e.Spares p := fun e mem => by cases mem
    exact (own_decides calm calm (Sees.refl p _) rfl spares none others).2.snapshotsOf.symm
  · intro c' es masks spares silent
    exact masks_run calm spares silent masks
  · intro c query events quiet begun closed
    exact c.search_settles p query quiet closed

/-! ### Two clients -/

def putRequest (peer : String) : Request :=
  { method := .put, target := "/cafe/v1/threads/a", headers := [("x-cafe-peer", peer)]
    body := [1] }

/-- A cafe with two clients, one of them with a snapshot that cannot be read back. -/
def neighbours : Visit :=
  let registered : ClientRow := { address := "", created := Instant.epoch.storedText }
  let clients : Table String ClientRow := ∅
  let snapshots : Table (String × String) SnapshotRow := ∅
  let records : Records :=
    { clients := (clients.put Cafe.anonymous.text registered).put "bob" registered
      snapshots := snapshots.put ("b", "bob") { ciphertext := [], updated := "" } }
  (start {}).withCafe { Cafe.ofConfig {} with records }

theorem neighbours_calm (p : String) : neighbours.Calm p :=
  (calm_start p {}).withCafe ⟨rfl, rfl, rfl⟩

/-- The neighbour's thread of the same name is no concern of the peer. -/
theorem neighbours_apart :
    let p := Cafe.anonymous.text
    let ours := Event.ask .epoch (putRequest p)
    let theirs := Event.ask .epoch (putRequest "bob")
    let search := Event.ask .epoch (Cafe.searchRequest ⟨"q", 1⟩)
    neighbours.Calm p ∧ (neighbours.step p ours).1.map Answer.status = some 204 ∧
      (neighbours.step p theirs).1.map Answer.status = some 204 ∧
      ownOf p {} [ours, theirs, search] = [ours, search] ∧
      neighbours.ownAnswers p [ours, theirs, search] = neighbours.ownAnswers p [ours, search] := by
  intro p ours theirs search
  have isOurs : ours.isOwn p {} = true := by decide +kernel
  have isTheirs : theirs.isOwn p {} = false := by decide +kernel
  have isSearch : search.isOwn p {} = true := by decide +kernel
  have own : ownOf p {} [ours, theirs, search] = [ours, search] := by
    simp only [ownOf, List.filter, isOurs, isTheirs, isSearch]
  have own' : ownOf p {} [ours, search] = [ours, search] := by
    simp only [ownOf, List.filter, isOurs, isSearch]
  have calm := neighbours_calm p
  have spares : ∀ e ∈ [ours, theirs, search], e.Spares p := by
    intro e mem
    simp only [List.mem_cons, List.not_mem_nil, or_false] at mem
    obtain rfl | rfl | rfl := mem <;> trivial
  have spares' : ∀ e ∈ [ours, search], e.Spares p := by
    intro e mem
    simp only [List.mem_cons, List.not_mem_nil, or_false] at mem
    obtain rfl | rfl := mem <;> trivial
  obtain ⟨same, -⟩ := (client_isolation calm).1 neighbours _ _ calm (Sees.refl p _) rfl spares
    spares' (own.trans own'.symm)
  exact ⟨calm, by decide +kernel, by decide +kernel, own, same⟩

end Visit

end Relay
