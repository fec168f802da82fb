import AuditGuard.AgentRegistry.Effects

/-!
# Liveness: pings and pongs

The orchestrator publishes a PING with a nonce from time to time, and agents answer with a PONG: the nonce, a message,
and a signature of the message. `verifyPongSignature` of `orchestrator.js` looks the nonce up among the pending pings,
recovers the signer, and asks the registry for the signer's profile; if there is one, the nonce is used up, and the
agent that the PONG names is recorded as alive.

The handlers of the PONGs run next to each other: each is suspended while the registry is asked. Anybody may publish a
PONG, with whatever signature there is of the message; but a signature recovers to an account only if the account has
signed the message before.

## Liveness: what a recorded PONG proves

Of a PONG only the signer of the message is looked at. So whoever is registered can answer for everybody, with a
signature of anything, and the first answer uses the nonce up for all others.
-/

namespace AuditGuard.Liveness

section

open Evm TransitionSystem
open AgentRegistry (AgentProfile)

/-- A PONG. A field that is missing is `none`. -/
structure Pong where
  agentId : String
  nonce : Option String
  signature : Option String
  message : Option String
deriving DecidableEq

/-- An entry of `pendingPings`. -/
structure Ping where
  timestamp : ℕ
  expiresAt : ℕ
deriving DecidableEq

/-- The time within which a PING is to be answered. -/
def pingExpiryMs : ℕ := 30000

/-- What the handlers share: the pending pings by nonce, and the roster, with the time at which each agent was last
seen. -/
structure Desk where
  pendingPings : String → Option Ping
  lastSeen : String → Option ℕ

/-- A handler that awaits `getAgent` of the signer that it has recovered, or is through, with the time at which its
PONG came. -/
structure Handler where
  agentId : String
  nonce : String
  message : String
  recovered : Address
  receivedAt : ℕ
  waiting : Bool

/-- `ethers.verifyMessage`: the account whose key has signed the message. -/
abbrev VerifyMessage := String → String → Except String Address

/-- `sendPing`, after the message was published. -/
def sendPing (nowMs : ℕ) (nonce : String) (m : Desk) : Desk :=
  { m with pendingPings := Function.update m.pendingPings nonce (some ⟨nowMs, nowMs + pingExpiryMs⟩) }

/-- `pendingPings.delete(nonce)`. -/
def Desk.deletePing (m : Desk) (nonce : String) : Desk :=
  { m with pendingPings := Function.update m.pendingPings nonce none }

/-- `cleanupExpiredPings`. -/
def cleanupExpiredPings (nowMs : ℕ) (m : Desk) : Desk :=
  { m with pendingPings := fun nonce => (m.pendingPings nonce).filter fun ping => nowMs ≤ ping.expiresAt }

/-- `recordPong`. -/
def recordPong (nowMs : ℕ) (agentId : String) (m : Desk) : Desk :=
  { m with lastSeen := Function.update m.lastSeen agentId ((m.lastSeen agentId).map fun _ => nowMs) }

/-- A field that is there, and not empty. -/
def present (field : Option String) : Option String := field.filter (· ≠ "")

/-- `verifyPongSignature`, up to its `await`: a handler is left if the nonce is pending and a signer is recovered. -/
def verifyPongSignature (verifyMessage : VerifyMessage) (nowMs : ℕ) (pong : Pong) (m : Desk) : Desk × List Handler :=
  match present pong.nonce, present pong.signature, present pong.message with
  | some nonce, some signature, some message =>
    match m.pendingPings nonce with
    | none => (m, [])
    | some ping =>
      if ping.expiresAt < nowMs then (m.deletePing nonce, [])
      else match verifyMessage message signature with
        | .error _ => (m, [])
        | .ok recovered => (m, [⟨pong.agentId, nonce, message, recovered, nowMs, true⟩])
  | _, _, _ => (m, [])

/-- The rest of `verifyPongSignature`, with the profile of the signer: whether the PONG is verified. -/
def verified (h : Handler) : Except String AgentProfile → Bool
  | .error _ => false
  | .ok agentProfile => h.recovered = agentProfile.agentAddress

/-! ## The system -/

/-- A PONG that was recorded: the agent, and the nonce that was used up. -/
structure Recorded where
  agentId : String
  nonce : String
deriving DecidableEq

/-- The orchestrator next to the registry, with the time, the messages that were signed, the pings that were sent, and
the PONGs that were recorded. -/
structure Watch where
  desk : Desk
  handlers : List Handler
  chain : World AgentRegistry.State
  nowMs : ℕ
  signed : List (Address × String)
  sent : List (String × Ping)
  recorded : List Recorded

/-- What happens. -/
inductive Event
  | ping (nonce : String)
  | pong (pong : Pong)
  | answer (d : ℕ) (a : Except String AgentProfile)
  | cleanup
  | sign (a : Address) (message : String)
  | tick
  /-- The roster changes otherwise. -/
  | roster
  /-- Somebody calls the registry. -/
  | move

/-- How signatures are verified, and where the registry is. -/
structure Setup where
  verifyMessage : VerifyMessage
  agentRegistry : Address

namespace Watch

variable (p : Watch)

/-- `getAgent`. -/
def getAgent (a : Address) : AgentProfile := p.chain.state.agents a

/-- A PING is published. -/
def ping (nonce : String) : Watch :=
  { p with
    desk := sendPing p.nowMs nonce p.desk
    sent := p.sent ++ [(nonce, ⟨p.nowMs, p.nowMs + pingExpiryMs⟩)] }

/-- A PONG comes in. -/
def pong (S : Setup) (pong : Pong) : Watch :=
  let started := verifyPongSignature S.verifyMessage p.nowMs pong p.desk
  { p with desk := started.1, handlers := p.handlers ++ started.2 }

/-- A handler goes on with an answer of the registry. -/
def answer (d : ℕ) (h : Handler) (a : Except String AgentProfile) : Watch :=
  let q := { p with handlers := p.handlers.set d { h with waiting := false } }
  if verified h a = true then
    { q with
      desk := recordPong p.nowMs h.agentId (p.desk.deletePing h.nonce)
      recorded := p.recorded ++ [⟨h.agentId, h.nonce⟩] }
  else q

end Watch

variable (S : Setup)

/-- The steps. -/
inductive Step : Watch → Event → Watch → Prop
  | ping {p : Watch} {nonce : String} (hnonce : nonce ≠ "") : Step p (.ping nonce) (p.ping nonce)
  | pong {p : Watch} {pong : Pong}
      (hsigned : ∀ signature ∈ pong.signature, ∀ message ∈ pong.message, ∀ (a : Address),
        S.verifyMessage message signature = .ok a → (a, message) ∈ p.signed) :
      Step p (.pong pong) (p.pong S pong)
  | answer {p : Watch} {d : ℕ} {h : Handler} {a : Except String AgentProfile} (hh : p.handlers[d]? = some h)
      (hwaiting : h.waiting = true) (hserves : ∀ profile, a = .ok profile → profile = p.getAgent h.recovered) :
      Step p (.answer d a) (p.answer d h a)
  | cleanup (p : Watch) : Step p .cleanup { p with desk := cleanupExpiredPings p.nowMs p.desk }
  | sign {p : Watch} {a : Address} (message : String) (ha : a ≠ 0) :
      Step p (.sign a message) { p with signed := p.signed ++ [(a, message)] }
  | tick {p : Watch} {nowMs : ℕ} (hle : p.nowMs ≤ nowMs) : Step p .tick { p with nowMs := nowMs }
  | roster (p : Watch) (lastSeen : String → Option ℕ) :
      Step p .roster { p with desk := { p.desk with lastSeen := lastSeen } }
  | move {p : Watch} {l : Label AgentRegistry.Env AgentRegistry.Call} {w : World AgentRegistry.State}
      (h : (AgentRegistry.contract S.agentRegistry).Step p.chain l w) : Step p .move { p with chain := w }

/-- An orchestrator that has just started, next to a registry with whatever history. -/
def system : TransitionSystem Watch Event where
  init p := (∀ nonce, p.desk.pendingPings nonce = none) ∧ p.handlers = [] ∧ p.signed = [] ∧ p.sent = [] ∧
    p.recorded = [] ∧ (AgentRegistry.contract S.agentRegistry).system.Reachable p.chain
  step := Step S

/-- What happened in a run. -/
abbrev Trace := List (Transition Watch Event)

end

section

open Evm TransitionSystem
open AgentRegistry (AgentProfile)

variable {S : Setup} {ts : Trace} {p p' : Watch} {e : Event} {h : Handler} {agent : Address}
  {agentId nonce message : String}

/-! ## Authentic and fair records -/

/-- The message has the nonce in it. -/
def Contains (message nonce : String) : Prop := nonce.toList <:+: message.toList

instance : Decidable (Contains message nonce) := inferInstanceAs (Decidable (_ <:+: _))

/-- The account is registered under the name. -/
def Watch.Registered (p : Watch) (a : Address) (agentId : String) : Prop :=
  a ≠ 0 ∧ (p.getAgent a).agentAddress = a ∧ (p.getAgent a).agentId = agentId

/-- A PONG is recorded only if an account that is registered under the name has signed a message with the nonce of a
PING that was not expired when the PONG came. -/
def Authentic (tr : Transition Watch Event) : Prop :=
  ∀ d a h, tr.label = .answer d a → tr.src.handlers[d]? = some h → verified h a = true →
    ∃ signer message nonce ping, tr.src.Registered signer h.agentId ∧ (signer, message) ∈ tr.src.signed ∧
      Contains message nonce ∧ (nonce, ping) ∈ tr.src.sent ∧ h.receivedAt ≤ ping.expiresAt

/-- A correct answer to a PING that is not expired. -/
structure Correct (S : Setup) (p : Watch) (pong : Pong) (nonce : String) : Prop where
  sent : ∃ ping, (nonce, ping) ∈ p.sent ∧ p.nowMs ≤ ping.expiresAt
  named : pong.nonce = some nonce
  signed : ∃ signature message signer, pong.signature = some signature ∧ signature ≠ "" ∧
    pong.message = some message ∧ message ≠ "" ∧ Contains message nonce ∧
    S.verifyMessage message signature = .ok signer ∧ p.Registered signer pong.agentId

/-- Correct answers are recorded by the time `p`. -/
def Fair (S : Setup) (tr : Transition Watch Event) (p : Watch) : Prop :=
  ∀ pong nonce, tr.label = .pong pong → Correct S tr.src pong nonce → ⟨pong.agentId, nonce⟩ ∈ p.recorded

/-- Every handler is through. -/
def Watch.Quiet (p : Watch) : Prop := ∀ h ∈ p.handlers, h.waiting = false

/-- All calls of the registry succeed. -/
def Succeeds (ts : Trace) : Prop := ∀ tr ∈ ts, ∀ (d : ℕ) (error : String), tr.label ≠ .answer d (.error error)

/-- A registered account that has signed a PONG is registered under the name that the PONG gives, and the message has
the nonce in it. -/
def Bound (tr : Transition Watch Event) : Prop :=
  ∀ d profile h, tr.label = .answer d (.ok profile) → tr.src.handlers[d]? = some h →
    tr.src.Registered h.recovered profile.agentId → profile.agentId = h.agentId ∧ Contains h.message h.nonce

/-- A correct answer comes before any PONG with its nonce was recorded. -/
def Unspent (S : Setup) (tr : Transition Watch Event) : Prop :=
  ∀ pong nonce, tr.label = .pong pong → Correct S tr.src pong nonce → ∀ r ∈ tr.src.recorded, r.nonce ≠ nonce

/-! ## The registry -/

theorem agentAddress_stays {this : Address} {env : AgentRegistry.Env} {c : AgentRegistry.Call}
    {w w' : World AgentRegistry.State} (hexec : AgentRegistry.exec this env c w = .ok w')
    (h : (w.state.agents agent).agentAddress = agent) : (w'.state.agents agent).agentAddress = agent := by
  rcases AgentRegistry.exec_ok hexec with ⟨a, op, -, hstep⟩ | ⟨-, hsame⟩
  · change ((AgentRegistry.books w').profiles agent).agentAddress = agent
    generalize AgentRegistry.books w' = b at hstep ⊢
    cases hstep with
    | step hprofile hpay =>
      dsimp only
      rcases eq_or_ne agent a with rfl | hne
      · rw [Function.update_self]
        cases hprofile with
        | register => rfl
        | addStake | promote | score | record | slash | withdraw | deregister | seed => exact h
      · rw [Function.update_of_ne hne]
        exact h
  · rw [show w'.state.agents = w.state.agents from congrArg AgentRegistry.Books.profiles hsame]
    exact h

theorem Step.agentAddress_stays (hstep : Step S p e p') (h : (p.getAgent agent).agentAddress = agent) :
    (p'.getAgent agent).agentAddress = agent := by
  cases hstep with
  | ping | pong | cleanup | sign | tick | roster => exact h
  | answer =>
    unfold Watch.answer
    dsimp only
    split_ifs
    · exact h
    · exact h
  | move hmove =>
    cases hmove with
    | elsewhere => exact h
    | @call env c _ w hs h0 ht hexec =>
      have hcall : AgentRegistry.exec S.agentRegistry env c p.chain = .ok w := hexec
      have hstays := Liveness.agentAddress_stays hcall h
      exact hstays

/-! ## The nonces -/

theorem present_some {field : String} (hne : field ≠ "") : present (some field) = some field :=
  Option.filter_eq_some_iff.mpr ⟨rfl, decide_eq_true hne⟩

theorem verifyPongSignature_spec (S : Setup) (nowMs : ℕ) (pong : Pong) (m : Desk) :
    (∀ nonce ping, (verifyPongSignature S.verifyMessage nowMs pong m).1.pendingPings nonce = some ping →
      m.pendingPings nonce = some ping) ∧
    (∀ nonce ping, m.pendingPings nonce = some ping → nowMs ≤ ping.expiresAt →
      (verifyPongSignature S.verifyMessage nowMs pong m).1.pendingPings nonce = some ping) ∧
    ∀ h ∈ (verifyPongSignature S.verifyMessage nowMs pong m).2, h.agentId = pong.agentId ∧ h.receivedAt = nowMs ∧
      (∃ ping, m.pendingPings h.nonce = some ping ∧ nowMs ≤ ping.expiresAt) ∧
      ∃ signature ∈ pong.signature, h.message ∈ pong.message ∧
        S.verifyMessage h.message signature = .ok h.recovered := by
  unfold verifyPongSignature
  split
  · rename_i nonce signature message hnonce hsignature hmessage
    split
    · exact ⟨fun _ _ => id, fun _ _ h _ => h, by simp⟩
    · rename_i ping hping
      split_ifs with hexpired
      · refine ⟨fun n q hq => ?_, fun n q hq hle => ?_, by simp⟩
        · by_cases hn : n = nonce
          · subst hn
            simp [Desk.deletePing] at hq
          · simpa [Desk.deletePing, hn] using hq
        · by_cases hn : n = nonce
          · subst hn
            obtain rfl := Option.some.inj (hping.symm.trans hq)
            omega
          · simpa [Desk.deletePing, hn] using hq
      · split
        · exact ⟨fun _ _ => id, fun _ _ h _ => h, by simp⟩
        · rename_i recovered hrecovered
          refine ⟨fun _ _ => id, fun _ _ h _ => h, fun h hh => ?_⟩
          obtain rfl := List.mem_singleton.mp hh
          have hmem := (Option.filter_eq_some_iff.mp hmessage).1
          exact ⟨rfl, rfl, ⟨ping, hping, Nat.le_of_not_lt hexpired⟩, signature,
            (Option.filter_eq_some_iff.mp hsignature).1, hmem, hrecovered⟩
  · exact ⟨fun _ _ => id, fun _ _ h _ => h, by simp⟩

/-- What is known of the nonces, and of the handlers, at any time. -/
structure Sound (S : Setup) (p : Watch) : Prop where
  pending : ∀ nonce ping, p.desk.pendingPings nonce = some ping → (nonce, ping) ∈ p.sent
  /-- PINGs run out in the order in which they were sent. -/
  sent : ∀ nonce ping, (nonce, ping) ∈ p.sent → nonce ≠ "" ∧ ping.expiresAt ≤ p.nowMs + pingExpiryMs
  /-- The nonce of a PING that is not expired is pending, or it is used up. -/
  unexpired : ∀ nonce ping, (nonce, ping) ∈ p.sent → p.nowMs ≤ ping.expiresAt → (∃ r ∈ p.recorded, r.nonce = nonce) ∨
    ∃ ping', p.desk.pendingPings nonce = some ping' ∧ ping.expiresAt ≤ ping'.expiresAt
  handlers : ∀ h ∈ p.handlers, (h.recovered, h.message) ∈ p.signed ∧
    ∃ ping, (h.nonce, ping) ∈ p.sent ∧ h.receivedAt ≤ ping.expiresAt
  /-- No key has the address zero. -/
  signers : ∀ a message, (a, message) ∈ p.signed → a ≠ 0

theorem Sound.ping (hp : Sound S p) (hnonce : nonce ≠ "") : Sound S (p.ping nonce) where
  pending n q hq := by
    by_cases hn : n = nonce
    · subst hn
      have hnew : some (⟨p.nowMs, p.nowMs + pingExpiryMs⟩ : Ping) = some q := by
        simpa [Watch.ping, sendPing] using hq
      rw [← Option.some.inj hnew]
      exact List.mem_append_right _ (List.mem_singleton_self _)
    · refine List.mem_append_left _ (hp.pending n q ?_)
      simpa [Watch.ping, sendPing, hn] using hq
  sent n q hq := by
    rcases List.mem_append.mp hq with hq | hq
    · exact hp.sent n q hq
    · obtain ⟨rfl, rfl⟩ := Prod.mk.inj (List.mem_singleton.mp hq)
      exact ⟨hnonce, le_rfl⟩
  unexpired n q hq hle := by
    by_cases hn : n = nonce
    · subst hn
      refine .inr ⟨⟨p.nowMs, p.nowMs + pingExpiryMs⟩, by simp [Watch.ping, sendPing], ?_⟩
      rcases List.mem_append.mp hq with hq | hq
      · exact (hp.sent n q hq).2
      · obtain ⟨-, rfl⟩ := Prod.mk.inj (List.mem_singleton.mp hq)
        exact le_rfl
    · rcases List.mem_append.mp hq with hq | hq
      · refine (hp.unexpired n q hq hle).imp_right fun ⟨ping', hping', hexpires⟩ => ⟨ping', ?_, hexpires⟩
        simpa [Watch.ping, sendPing, hn] using hping'
      · exact absurd (Prod.mk.inj (List.mem_singleton.mp hq)).1 hn
  handlers h hh := by
    obtain ⟨hsigned, ping, hping, hle⟩ := hp.handlers h hh
    exact ⟨hsigned, ping, List.mem_append_left _ hping, hle⟩
  signers := hp.signers

theorem Sound.pong {pong : Pong} (hp : Sound S p)
    (hsigned : ∀ signature ∈ pong.signature, ∀ message ∈ pong.message, ∀ (a : Address),
      S.verifyMessage message signature = .ok a → (a, message) ∈ p.signed) : Sound S (p.pong S pong) := by
  obtain ⟨hold, hkept, hstarted⟩ := verifyPongSignature_spec S p.nowMs pong p.desk
  refine ⟨fun n q hq => hp.pending n q (hold n q hq), hp.sent, fun n q hq hle => ?_, fun h hh => ?_, hp.signers⟩
  · refine (hp.unexpired n q hq hle).imp_right fun ⟨ping', hping', hexpires⟩ => ⟨ping', ?_, hexpires⟩
    exact hkept n ping' hping' (hle.trans hexpires)
  · rcases List.mem_append.mp hh with hh | hh
    · exact hp.handlers h hh
    · obtain ⟨-, hreceived, ⟨ping, hping, hle⟩, signature, hsig, hmessage, hverify⟩ := hstarted h hh
      refine ⟨hsigned signature hsig h.message hmessage h.recovered hverify, ping, hp.pending _ _ hping, ?_⟩
      rw [hreceived]
      exact hle

theorem Sound.answer {d : ℕ} {a : Except String AgentProfile} (hp : Sound S p) (hh : p.handlers[d]? = some h) :
    Sound S (p.answer d h a) := by
  have hhandlers : ∀ x ∈ p.handlers.set d { h with waiting := false }, (x.recovered, x.message) ∈ p.signed ∧
      ∃ ping, (x.nonce, ping) ∈ p.sent ∧ x.receivedAt ≤ ping.expiresAt := by
    intro x hx
    rcases List.mem_or_eq_of_mem_set hx with hx | rfl
    · exact hp.handlers x hx
    · exact hp.handlers h (List.mem_of_getElem? hh)
  unfold Watch.answer
  dsimp only
  split_ifs
  · refine ⟨fun n q hq => hp.pending n q ?_, hp.sent, fun n q hq hle => ?_, hhandlers, hp.signers⟩
    · by_cases hn : n = h.nonce
      · simp [recordPong, Desk.deletePing, hn] at hq
      · simpa [recordPong, Desk.deletePing, hn] using hq
    · by_cases hn : n = h.nonce
      · exact .inl ⟨_, List.mem_append_right _ (List.mem_singleton_self _), hn.symm⟩
      · rcases hp.unexpired n q hq hle with ⟨r, hr, hnonce⟩ | ⟨ping', hping', hexpires⟩
        · exact .inl ⟨r, List.mem_append_left _ hr, hnonce⟩
        · refine .inr ⟨ping', ?_, hexpires⟩
          simpa [recordPong, Desk.deletePing, hn] using hping'
  · exact ⟨hp.pending, hp.sent, hp.unexpired, hhandlers, hp.signers⟩

theorem sound (hr : (system S).Reachable p) : Sound S p := by
  induction hr with
  | init hinit =>
    obtain ⟨hpending, hhandlers, hsigned, hsent, -, -⟩ := hinit
    exact ⟨by simp [hpending], by simp [hsent], by simp [hsent], by simp [hhandlers], by simp [hsigned]⟩
  | @step p p' e hr hstep ih =>
    cases hstep with
    | ping hnonce => exact ih.ping hnonce
    | pong hsigned => exact ih.pong hsigned
    | answer hh hwaiting hserves => exact ih.answer hh
    | cleanup =>
      refine ⟨fun n q hq => ?_, ih.sent, fun n q hq hle => ?_, ih.handlers, ih.signers⟩
      · exact ih.pending n q (Option.filter_eq_some_iff.mp hq).1
      · refine (ih.unexpired n q hq hle).imp_right fun ⟨ping', hping', hexpires⟩ => ⟨ping', ?_, hexpires⟩
        exact Option.filter_eq_some_iff.mpr ⟨hping', decide_eq_true (hle.trans hexpires)⟩
    | sign message ha =>
      refine ⟨ih.pending, ih.sent, ih.unexpired, fun h hh => ?_, fun a m hm => ?_⟩
      · exact (ih.handlers h hh).imp_left (List.mem_append_left _)
      · rcases List.mem_append.mp hm with hm | hm
        · exact ih.signers a m hm
        · rw [(Prod.mk.inj (List.mem_singleton.mp hm)).1]
          exact ha
    | tick hle =>
      refine ⟨ih.pending, fun n q hq => ?_, fun n q hq hq' => ih.unexpired n q hq (hle.trans hq'), ih.handlers,
        ih.signers⟩
      exact (ih.sent n q hq).imp_right fun hexpires => hexpires.trans (Nat.add_le_add_right hle _)
    | roster | move => exact ⟨ih.pending, ih.sent, ih.unexpired, ih.handlers, ih.signers⟩

/-! ## Authenticity and fairness -/

theorem authentic {tr : Transition Watch Event} (hp : Sound S tr.src) (hstep : Step S tr.src tr.label tr.dst)
    (hbound : Bound tr) : Authentic tr := by
  obtain ⟨p, e, p'⟩ := tr
  intro d a h hlabel hh hverified
  dsimp only at hlabel hh hstep hp ⊢
  subst hlabel
  cases hstep with
  | @answer _ h' _ hh' hwaiting hserves =>
    obtain rfl := Option.some.inj (hh.symm.trans hh')
    obtain ⟨hsigned, ping, hping, hreceived⟩ := hp.handlers h (List.mem_of_getElem? hh)
    cases a with
    | error error => cases hverified
    | ok profile =>
      have haddress : h.recovered = profile.agentAddress := of_decide_eq_true hverified
      have hprofile := hserves profile rfl
      have hregistered : p.Registered h.recovered profile.agentId := by
        refine ⟨hp.signers _ _ hsigned, ?_, ?_⟩
        · rw [← hprofile, ← haddress]
        · rw [← hprofile]
      obtain ⟨hname, hcontains⟩ := hbound d profile h rfl hh hregistered
      exact ⟨h.recovered, h.message, h.nonce, ping, hname ▸ hregistered, hsigned, hcontains, hping, hreceived⟩

/-- An answer is recorded, or a handler is going to record it. -/
def UnderWay (p : Watch) (agentId nonce : String) : Prop :=
  ⟨agentId, nonce⟩ ∈ p.recorded ∨ ∃ h ∈ p.handlers, h.agentId = agentId ∧ h.nonce = nonce ∧ h.waiting = true ∧
    (p.getAgent h.recovered).agentAddress = h.recovered

theorem underWay_pong {pong : Pong} (hp : Sound S p) (hcorrect : Correct S p pong nonce)
    (hunspent : ∀ r ∈ p.recorded, r.nonce ≠ nonce) : UnderWay (p.pong S pong) pong.agentId nonce := by
  obtain ⟨⟨ping, hsent, hle⟩, hnamed, signature, message, signer, hsignature, hne, hmessage, hne', hcontains, hverify,
    hregistered⟩ := hcorrect
  rcases hp.unexpired nonce ping hsent hle with ⟨r, hr, heq⟩ | ⟨ping', hping', hexpires⟩
  · exact absurd heq (hunspent r hr)
  · have hnonce := (hp.sent nonce ping hsent).1
    have hstarted : (verifyPongSignature S.verifyMessage p.nowMs pong p.desk).2 =
        [⟨pong.agentId, nonce, message, signer, p.nowMs, true⟩] := by
      have hfresh : ¬ ping'.expiresAt < p.nowMs := by omega
      unfold verifyPongSignature
      rw [hnamed, hsignature, hmessage, present_some hnonce, present_some hne, present_some hne']
      simp only [hping', hfresh, hverify, if_false]
    refine .inr ⟨⟨pong.agentId, nonce, message, signer, p.nowMs, true⟩, List.mem_append_right _ ?_, rfl, rfl, rfl,
      hregistered.2.1⟩
    rw [hstarted]
    exact List.mem_singleton_self _

/-- An answer that is under way stays so, if all calls succeed. -/
theorem UnderWay.step (hway : UnderWay p agentId nonce) (hstep : Step S p e p')
    (hok : ∀ (d : ℕ) (error : String), e ≠ .answer d (.error error)) : UnderWay p' agentId nonce := by
  rcases hway with hrecorded | ⟨h, hh, hagent, hnonce, hwaiting, hregistered⟩
  · cases hstep with
    | ping | pong | cleanup | sign | tick | roster | move => exact .inl hrecorded
    | answer =>
      unfold Watch.answer
      dsimp only
      split_ifs
      · exact .inl (List.mem_append_left _ hrecorded)
      · exact .inl hrecorded
  · have hstays := hstep.agentAddress_stays hregistered
    cases hstep with
    | ping | cleanup | sign | tick | roster | move => exact .inr ⟨h, hh, hagent, hnonce, hwaiting, hstays⟩
    | pong => exact .inr ⟨h, List.mem_append_left _ hh, hagent, hnonce, hwaiting, hstays⟩
    | @answer d x a hx hxwaiting hserves =>
      obtain ⟨i, hi⟩ := List.mem_iff_getElem?.mp hh
      by_cases hid : i = d
      · -- It is its turn, and the registry answers with the profile of the signer.
        subst hid
        obtain rfl := Option.some.inj (hi.symm.trans hx)
        cases a with
        | error error => exact absurd rfl (hok i error)
        | ok profile =>
          have hverified : verified h (.ok profile) = true := by
            refine decide_eq_true ?_
            rw [hserves profile rfl, hregistered]
          unfold Watch.answer
          dsimp only
          rw [if_pos hverified, hagent, hnonce]
          exact .inl (List.mem_append_right _ (List.mem_singleton_self _))
      · have hmem : h ∈ p.handlers.set d { x with waiting := false } :=
          List.mem_iff_getElem?.mpr ⟨i, (List.getElem?_set_ne (Ne.symm hid)).trans hi⟩
        refine .inr ⟨h, ?_, hagent, hnonce, hwaiting, hstays⟩
        unfold Watch.answer
        dsimp only
        split_ifs
        · exact hmem
        · exact hmem

theorem underWay (hr : (system S).Run ts p) (hok : Succeeds ts) (hunspent : ∀ tr ∈ ts, Unspent S tr) :
    ∀ tr ∈ ts, ∀ pong nonce, tr.label = .pong pong → Correct S tr.src pong nonce → UnderWay p pong.agentId nonce := by
  induction hr with
  | init => simp
  | @step ts p p' e hr hstep ih =>
    intro tr htr pong nonce hlabel hcorrect
    have hlast : (⟨p, e, p'⟩ : Transition Watch Event) ∈ ts ++ [⟨p, e, p'⟩] :=
      List.mem_append_right _ (List.mem_singleton_self _)
    rcases List.mem_append.mp htr with htr | htr
    · have hway := ih (fun tr htr => hok tr (List.mem_append_left _ htr))
        (fun tr htr => hunspent tr (List.mem_append_left _ htr)) tr htr pong nonce hlabel hcorrect
      exact hway.step hstep (hok _ hlast)
    · obtain rfl := List.mem_singleton.mp htr
      dsimp only at hlabel hcorrect
      subst hlabel
      cases hstep with
      | pong => exact underWay_pong (sound hr.reachable) hcorrect (hunspent _ hlast pong nonce rfl hcorrect)

/-- Where registered accounts answer under their own name with the nonce in their message, and no correct answer comes
after a PONG with its nonce was recorded, PONGs are authentic; and if all calls succeed and every handler is through,
they are fair. -/
theorem authentic_and_fair (hr : (system S).Run ts p) (hcond : ∀ tr ∈ ts, Bound tr ∧ Unspent S tr) :
    (∀ tr ∈ ts, Authentic tr) ∧ (p.Quiet → Succeeds ts → ∀ tr ∈ ts, Fair S tr p) := by
  refine ⟨fun tr htr => ?_, fun hquiet hok tr htr pong nonce hlabel hcorrect => ?_⟩
  · obtain ⟨hreach, hstep⟩ := hr.step_of_mem tr htr
    exact authentic (sound hreach) hstep (hcond tr htr).1
  · have hway := underWay hr hok (fun tr htr => (hcond tr htr).2) tr htr pong nonce hlabel hcorrect
    rcases hway with hrecorded | ⟨h, hh, -, -, hwaiting, -⟩
    · exact hrecorded
    · rw [hquiet h hh] at hwaiting
      cases hwaiting

/-! ## Samples -/

/-- What is to happen. The registry answers with what it has. -/
inductive Move
  | ping (nonce : String)
  | pong (pong : Pong)
  | answer (d : ℕ)
  | sign (a : Address) (message : String)

/-- The event of a move. -/
def Move.event (p : Watch) : Move → Event
  | .ping n => .ping n
  | .pong x => .pong x
  | .answer d => .answer d (.ok (p.getAgent (((p.handlers[d]?).map Handler.recovered).getD 0)))
  | .sign a m => .sign a m

/-- The signer of a PONG has signed its message. -/
def Watch.credible (S : Setup) (p : Watch) (pong : Pong) : Bool :=
  pong.signature.all fun signature => pong.message.all fun message =>
    match S.verifyMessage message signature with
    | .error _ => true
    | .ok a => (a, message) ∈ p.signed

/-- What comes of a move, if it is possible. -/
def Watch.play (S : Setup) (p : Watch) : Move → Option Watch
  | .ping nonce => if nonce ≠ "" then some (p.ping nonce) else none
  | .pong pong => if p.credible S pong = true then some (p.pong S pong) else none
  | .answer d =>
    match p.handlers[d]? with
    | none => none
    | some h => if h.waiting = true then some (p.answer d h (.ok (p.getAgent h.recovered))) else none
  | .sign a message => if a ≠ 0 then some { p with signed := p.signed ++ [(a, message)] } else none

/-- A move is a step. -/
theorem step_of_play {move : Move} (h : p.play S move = some p') : Step S p (move.event p) p' := by
  cases move with
  | ping nonce =>
    unfold Watch.play at h
    dsimp only at h
    split_ifs at h with hnonce
    obtain rfl := Option.some.inj h
    exact .ping hnonce
  | pong pong =>
    unfold Watch.play at h
    dsimp only at h
    split_ifs at h with hcredible
    obtain rfl := Option.some.inj h
    refine .pong fun signature hsignature message hmessage a hverify => ?_
    unfold Watch.credible at hcredible
    rw [Option.mem_def.mp hsignature, Option.mem_def.mp hmessage] at hcredible
    simpa [hverify] using hcredible
  | answer d =>
    unfold Watch.play at h
    dsimp only at h
    split at h
    · cases h
    · rename_i handler hh
      split_ifs at h with hwaiting
      obtain rfl := Option.some.inj h
      have hevent : (Move.answer d).event p = .answer d (.ok (p.getAgent handler.recovered)) := by
        unfold Move.event
        dsimp only
        rw [hh]
        rfl
      rw [hevent]
      exact .answer hh hwaiting fun profile heq => (Except.ok.inj heq).symm
  | sign a message =>
    unfold Watch.play at h
    dsimp only at h
    split_ifs at h with ha
    obtain rfl := Option.some.inj h
    exact .sign message ha

theorem plays : (system S).Plays (Watch.play S) fun p move e => e = move.event p :=
  fun _ _ _ h => ⟨_, rfl, step_of_play h⟩

/-- Two agents register with the sample registry. -/
def registrations : List (AgentRegistry.Env × AgentRegistry.Call) := [
  (AgentRegistry.sampleEnv 2 1, .registerAgent "fuzzer" "http://fuzzer" [] ⟨10^10, by norm_num⟩),
  (AgentRegistry.sampleEnv 3 2, .registerAgent "static" "http://static" [] ⟨10^10, by norm_num⟩)]

/-- The registry with the two agents. -/
def sampleRegistry : World AgentRegistry.State :=
  ((AgentRegistry.contract 1).execAll registrations AgentRegistry.sampleWorld).toOption.getD AgentRegistry.sampleWorld

/-- A signature is the message after the number of its signer. -/
def sampleVerify : VerifyMessage := fun message signature =>
  if signature = "2:" ++ message then .ok 2
  else if signature = "3:" ++ message then .ok 3
  else .error "invalid signature"

/-- The registry at address 1, with these signatures. -/
def sampleSetup : Setup := ⟨sampleVerify, 1⟩

/-- Both agents are on the roster, and none has sent a heartbeat. -/
def sampleWatch : Watch where
  desk := ⟨fun _ => none, fun agentId => if agentId = "fuzzer" ∨ agentId = "static" then some 0 else none⟩
  handlers := []
  chain := sampleRegistry
  nowMs := 1000
  signed := []
  sent := []
  recorded := []

theorem sample_init : (system sampleSetup).init sampleWatch := by
  refine ⟨fun _ => rfl, rfl, rfl, rfl, rfl, ?_⟩
  obtain ⟨ts, w, hexec, hr, -⟩ := AgentRegistry.sample_run registrations (by decide) rfl
  have hchain : sampleWatch.chain = w := by
    change sampleRegistry = w
    unfold sampleRegistry
    rw [hexec]
    rfl
  rw [hchain]
  exact hr.reachable

/-- The move keeps PONGs bound to their signers, and comes before its nonce is used up. -/
def Watch.proper (p : Watch) : Move → Bool
  | .answer d => (p.handlers[d]?).all fun h =>
    (p.getAgent h.recovered).agentId = h.agentId ∧ Contains h.message h.nonce
  | .pong x => p.recorded.all fun r => some r.nonce ≠ x.nonce
  | _ => true

theorem conditions_of_moves {tr : Transition Watch Event} {move : Move} (hlabel : tr.label = move.event tr.src)
    (hproper : tr.src.proper move = true) : Bound tr ∧ Unspent S tr := by
  constructor
  · intro d profile h heq hh hregistered
    rw [heq] at hlabel
    cases move with
    | answer d' =>
      obtain ⟨rfl, hprofile⟩ := Event.answer.inj hlabel
      obtain rfl := Except.ok.inj hprofile
      unfold Watch.proper at hproper
      dsimp only at hproper
      rw [hh] at hproper ⊢
      exact of_decide_eq_true hproper
    | _ => cases hlabel
  · intro x nonce heq hcorrect r hr
    rw [heq] at hlabel
    cases move with
    | pong x' =>
      obtain rfl := Event.pong.inj hlabel
      have hne := of_decide_eq_true (List.all_eq_true.mp hproper r hr)
      rw [hcorrect.named] at hne
      exact fun hsame => hne (congrArg some hsame)
    | _ => cases hlabel

/-- The correct answer of an agent. -/
def honestPong : Pong := ⟨"fuzzer", some "n1", some "2:PONG:n1:fuzzer", some "PONG:n1:fuzzer"⟩

/-- Both agents answer a PING, and both are recorded. -/
def honestMoves : List Move := [
  .ping "n1",
  .sign 2 "PONG:n1:fuzzer",
  .sign 3 "PONG:n1:static",
  .pong honestPong,
  .pong ⟨"static", some "n1", some "3:PONG:n1:static", some "PONG:n1:static"⟩,
  .answer 1,
  .answer 0]

/-- Both conditions are met. -/
theorem authentic_and_fair_sample : ∃ ts p, (system sampleSetup).Run ts p ∧
    p.recorded = [⟨"static", "n1"⟩, ⟨"fuzzer", "n1"⟩] ∧ (∀ tr ∈ ts, Authentic tr) ∧
    (p.Quiet → Succeeds ts → ∀ tr ∈ ts, Fair sampleSetup tr p) := by
  have hplay : (honestMoves.foldlM (fun p move => if p.proper move = true then p.play sampleSetup move else none)
      sampleWatch).map Watch.recorded = some [⟨"static", "n1"⟩, ⟨"fuzzer", "n1"⟩] := by decide +kernel
  obtain ⟨ts, p, hr, hrecorded, hfrom, -⟩ := plays.guarded.exists_run sample_init hplay
  refine ⟨ts, p, hr, hrecorded, authentic_and_fair hr fun tr htr => ?_⟩
  obtain ⟨move, -, hcomes⟩ := hfrom tr htr
  exact conditions_of_moves hcomes.means.1 hcomes.means.2

/-- One agent answers under the name of somebody who does not exist, with a message of its own, before another agent
gives a correct answer. -/
def forgedMoves : List Move := [
  .ping "n1",
  .sign 3 "hello",
  .pong ⟨"nobody", some "n1", some "3:hello", some "hello"⟩,
  .answer 0,
  .sign 2 "PONG:n1:fuzzer",
  .pong honestPong]

/-- Where the registry answers, nobody but 3 has signed anything, and the answer is accepted; and the correct answer
comes in time. -/
def Watch.forged (p : Watch) : Move → Bool
  | .answer d => p.signed = [(3, "hello")] ∧ (p.getAgent 3).agentId = "static" ∧
    (p.handlers[d]?).any (fun h => h.agentId = "nobody" ∧ verified h (.ok (p.getAgent h.recovered)) = true) = true
  | .pong x => x = honestPong → ("n1", ⟨1000, 31000⟩) ∈ p.sent ∧ p.nowMs = 1000 ∧
    (p.getAgent 2).agentAddress = 2 ∧ (p.getAgent 2).agentId = "fuzzer"
  | _ => true

/-- An agent has somebody else recorded who has not answered, and the agent that does answer is turned away. -/
theorem forged_pong_recorded :
    (¬ ∀ (S : Setup) (ts : Trace) (p : Watch), (system S).Run ts p → ∀ tr ∈ ts, Authentic tr) ∧
    ¬ ∀ (S : Setup) (ts : Trace) (p : Watch), (system S).Run ts p → p.Quiet → Succeeds ts →
      ∀ tr ∈ ts, Fair S tr p := by
  have hplay : (forgedMoves.foldlM (fun p move => if p.forged move = true then p.play sampleSetup move else none)
      sampleWatch).map (fun p => (p.recorded, p.handlers.map Handler.waiting)) =
      some ([⟨"nobody", "n1"⟩], [false]) := by decide +kernel
  obtain ⟨ts, p, hr, hread, hfrom, hto⟩ := plays.guarded.exists_run sample_init hplay
  have hrecorded : p.recorded = [⟨"nobody", "n1"⟩] := congrArg Prod.fst hread
  have hwaiting : p.handlers.map Handler.waiting = [false] := congrArg Prod.snd hread
  constructor
  · intro hall
    obtain ⟨tr, htr, hcomes⟩ := hto (.answer 0) (by simp [forgedMoves])
    obtain ⟨hlabel, hforged⟩ := hcomes.means
    obtain ⟨hsigned, hstatic, hany⟩ := of_decide_eq_true hforged
    obtain ⟨h, hh, haccepted⟩ := Option.any_eq_true _ _ |>.mp hany
    obtain ⟨hname, hverified⟩ := of_decide_eq_true haccepted
    have hanswer : tr.label = .answer 0 (.ok (tr.src.getAgent h.recovered)) := by
      rw [hlabel]
      unfold Move.event
      dsimp only
      rw [hh]
      rfl
    obtain ⟨signer, message, -, -, ⟨-, -, hregistered⟩, hmem, -⟩ := hall _ _ _ hr tr htr 0 _ h hanswer hh hverified
    rw [hsigned] at hmem
    rw [(Prod.mk.inj (List.mem_singleton.mp hmem)).1, hname, hstatic] at hregistered
    exact absurd hregistered (by decide)
  · intro hall
    obtain ⟨tr, htr, hcomes⟩ := hto (.pong honestPong) (by simp [forgedMoves])
    obtain ⟨hlabel, hforged⟩ := hcomes.means
    obtain ⟨hsent, hnow, haddress, hname⟩ := of_decide_eq_true hforged rfl
    have hquiet : p.Quiet := by
      intro h hh
      have hmem : h.waiting ∈ p.handlers.map Handler.waiting := List.mem_map_of_mem hh
      rw [hwaiting] at hmem
      exact List.mem_singleton.mp hmem
    have hok : Succeeds ts := by
      intro tr htr d error heq
      obtain ⟨move, -, hcomes⟩ := hfrom tr htr
      have hmove := hcomes.means.1
      rw [heq] at hmove
      cases move with
      | answer d' => cases (Event.answer.inj hmove).2
      | _ => cases hmove
    have hcorrect : Correct sampleSetup tr.src honestPong "n1" := by
      refine ⟨⟨⟨1000, 31000⟩, hsent, by rw [hnow]; decide⟩, rfl, "2:PONG:n1:fuzzer", "PONG:n1:fuzzer", 2, rfl,
        by decide, rfl,
        by decide, by decide +kernel, by decide +kernel, by decide, haddress, hname⟩
    have hmem := hall _ _ _ hr hquiet hok tr htr honestPong "n1" hlabel hcorrect
    rw [hrecorded] at hmem
    exact absurd hmem (by decide)

end

end AuditGuard.Liveness
