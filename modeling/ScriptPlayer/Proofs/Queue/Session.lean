import Mathlib.Data.List.Perm.Basic
import ScriptPlayer.Proofs.Timer.Ledger

/-! Everything that can be done with an event queue. Producers post; the consumer takes and clears,
and signals, drops or keeps each rendezvous that it receives, until the queue goes away. Each action
moves events and rendezvous from one owner to the next. -/
namespace ScriptPlayer

/-- What the consumer does with a rendezvous that it receives. -/
inductive Disposition
  | signal
  | drop
  | hold
deriving DecidableEq

inductive QueueAction
  | dispatch (target : TargetId) (kind : String)
  | retire (target : TargetId)
  /-- post a fresh rendezvous -/
  | sync
  | take (d : Disposition)
  /-- signal or drop a held rendezvous, by its place in the list of those held -/
  | resolve (i : Nat) (signalled : Bool)
  | clear
  /-- the consumer goes away, and the queue with it -/
  | close
deriving DecidableEq

inductive QueueReply
  | sent (ok : Bool)
  | asked (ok : Bool) (r : RendezvousId)
  | taken (e : Option Event)
  | resolved (r : Option RendezvousId)
  | cleared (n : Nat)
  | closed
deriving DecidableEq

def QueueReply.accepted? : QueueReply → Option Bool
  | sent ok | asked ok _ => some ok
  | _ => none

structure QueueSession where
  queue : EventQueue
  held : List RendezvousId

structure QueueStep where
  action : QueueAction
  reply : QueueReply
  left : List Event

namespace QueueAction

def posts : QueueAction → Bool
  | dispatch .. | retire _ | sync => true
  | _ => false

end QueueAction

namespace QueueStep

def sent (a : QueueStep) : List Event :=
  match a.action, a.reply with
  | .dispatch target kind, .sent true => [.dispatch target kind]
  | .retire target, .sent true => [.retire target]
  | .sync, .asked true r => [.sync r]
  | _, _ => []

def asked (a : QueueStep) : List RendezvousId :=
  match a.reply with
  | .asked _ r => [r]
  | _ => []

def taken (a : QueueStep) : List Event :=
  match a.reply with
  | .taken e => e.toList
  | _ => []

def signals (a : QueueStep) : List RendezvousId :=
  match a.action, a.reply with
  | .take .signal, .taken (some (.sync r)) => [r]
  | .resolve _ true, .resolved (some r) => [r]
  | _, _ => []

/-- The rendezvous that nobody can signal any more: the consumer dropped them, or they were in a
queue that was cleared or went away, or the queue was gone. -/
def drops (a : QueueStep) : List RendezvousId :=
  match a.action, a.reply with
  | .take .drop, .taken (some (.sync r)) => [r]
  | .resolve _ false, .resolved (some r) => [r]
  | .clear, _ | .close, _ => a.left.filterMap Event.rendezvous?
  | .sync, .asked false r => [r]
  | _, _ => []

def Accounts (a : QueueStep) : Prop :=
  match a.action, a.reply with
  | .take _, .taken e => a.left = e.toList
  | .clear, .cleared n => a.left.length = n
  | .close, .closed => True
  | .dispatch .., .sent _ | .retire _, .sent _ | .sync, .asked .. | .resolve .., .resolved _ =>
    a.left = []
  | _, _ => False

end QueueStep

/-! What a sequence of steps amounts to -/

namespace QueueLog

def sent (l : List QueueStep) : List Event := l.flatMap QueueStep.sent

def asked (l : List QueueStep) : List RendezvousId := l.flatMap QueueStep.asked

def taken (l : List QueueStep) : List Event := l.flatMap QueueStep.taken

def left (l : List QueueStep) : List Event := l.flatMap QueueStep.left

def signals (l : List QueueStep) : List RendezvousId := l.flatMap QueueStep.signals

def drops (l : List QueueStep) : List RendezvousId := l.flatMap QueueStep.drops

end QueueLog

namespace QueueSession

def receive (s : QueueSession) (d : Disposition) : Event → QueueSession
  | .sync r =>
    match d with
    | .signal => { s with queue := s.queue.signal r }
    | .drop => { s with queue := s.queue.settle r .dropped }
    | .hold => { s with held := s.held ++ [r] }
  | _ => s

def post (s : QueueSession) (e : Event) : QueueReply × QueueSession :=
  let (ok, queue) := s.queue.post e
  (.sent ok, { s with queue := queue })

def resolve (s : QueueSession) (i : Nat) (outcome : Rendezvous) : QueueReply × QueueSession :=
  match s.held[i]? with
  | some r => (.resolved (some r), ⟨s.queue.settle r outcome, s.held.eraseIdx i⟩)
  | none => (.resolved none, s)

def step (s : QueueSession) : QueueAction → QueueReply × QueueSession
  | .dispatch target kind => s.post (.dispatch target kind)
  | .retire target => s.post (.retire target)
  | .sync =>
    let (ok, r, queue) := s.queue.postSync
    (.asked ok r, { s with queue := queue })
  | .take d =>
    match s.queue.take with
    | (some e, queue) => (.taken (some e), { s with queue := queue }.receive d e)
    | (none, _) => (.taken none, s)
  | .resolve i true => s.resolve i .signalled
  | .resolve i false => s.resolve i .dropped
  | .clear =>
    let (n, queue) := s.queue.clear
    (.cleared n, { s with queue := queue })
  | .close => (.closed, { s with queue := s.queue.close })

def leaving (s : QueueSession) : QueueAction → List Event
  | .take _ => s.queue.pending.head?.toList
  | .clear | .close => s.queue.pending
  | _ => []

def record (s : QueueSession) (a : QueueAction) : QueueStep := ⟨a, (s.step a).1, s.leaving a⟩

def fresh : QueueSession := ⟨.empty, []⟩

def play (acts : List QueueAction) : List QueueStep × QueueSession :=
  acts.foldl (fun (l, s) a => (l ++ [s.record a], (s.step a).2)) ([], fresh)

theorem play_snoc (acts : List QueueAction) (a : QueueAction) :
    play (acts ++ [a]) = ((play acts).1 ++ [(play acts).2.record a], ((play acts).2.step a).2) := by
  unfold play
  rw [List.foldl_append]
  rfl

/-- The rendezvous that have an owner: those in the queue, and those that the consumer holds. -/
def owned (s : QueueSession) : List RendezvousId :=
  s.queue.pending.filterMap Event.rendezvous? ++ s.held

end QueueSession

namespace EventQueue

variable {q : EventQueue} {r : RendezvousId}

theorem status_settle_of_waiting {s : Rendezvous} (h : q.status r = some .waiting) :
    (q.settle r s).status r = some s := by
  rw [status_settle, h]
  simp

theorem status_settle_of_ne {r' : RendezvousId} (h : r' ≠ r) (s : Rendezvous) :
    (q.settle r s).status r' = q.status r' := by
  rw [status_settle]
  simp [Ne.symm h]

theorem length_rendezvous_settle (q : EventQueue) (r : RendezvousId) (s : Rendezvous) :
    (q.settle r s).rendezvous.length = q.rendezvous.length :=
  List.length_modify _ _ _

theorem status_foldl_discard (q : EventQueue) (es : List Event) (r : RendezvousId) :
    (r ∈ es.filterMap Event.rendezvous? → q.status r = some .waiting →
      (es.foldl discard q).status r = some .dropped) ∧
    (r ∉ es.filterMap Event.rendezvous? → (es.foldl discard q).status r = q.status r) := by
  induction es generalizing q with
  | nil => exact ⟨fun h => absurd h List.not_mem_nil, fun _ => rfl⟩
  | cons e es ih =>
    rw [List.foldl_cons]
    cases e with
    | sync r' =>
      rw [List.filterMap_cons_some (f := Event.rendezvous?) rfl, List.mem_cons]
      by_cases he : r = r'
      · subst he
        refine ⟨fun _ hw => ?_, fun h => absurd (Or.inl rfl) h⟩
        exact (foldl_discard _ es).2.2.2 r |>.2 _ (by decide) (status_settle_of_waiting hw)
      · have hkeep : (q.discard (.sync r')).status r = q.status r := status_settle_of_ne he _
        obtain ⟨hin, hout⟩ := ih (q.discard (.sync r'))
        rw [hkeep] at hin hout
        exact ⟨fun h => hin (h.resolve_left he), fun h => hout fun hmem => h (Or.inr hmem)⟩
    | dispatch target kind => exact ih q
    | retire target => exact ih q

end EventQueue

namespace QueueSession

variable {s s' : QueueSession} {a : QueueStep}

/-- Every rendezvous that has an owner waits, and each has one owner. -/
structure Sound (s : QueueSession) : Prop where
  waiting : ∀ r ∈ s.owned, s.queue.status r = some .waiting
  gone : s.queue.isOpen = false → s.queue.pending = []

/-- All that one action does. -/
structure Moves (s : QueueSession) (a : QueueStep) (s' : QueueSession) : Prop where
  accounts : a.Accounts
  pending : s.queue.pending ++ a.sent = a.left ++ s'.queue.pending
  asked : a.asked = [] ∨ a.asked = [s.queue.rendezvous.length]
  length : s'.queue.rendezvous.length = s.queue.rendezvous.length + a.asked.length
  /-- a rendezvous stays with its owner, goes to another one, or is settled -/
  owners : (s.owned ++ a.asked).Perm (a.signals ++ a.drops ++ s'.owned)
  signalled : ∀ r ∈ a.signals, s'.queue.status r = some .signalled
  dropped : ∀ r ∈ a.drops, s'.queue.status r = some .dropped
  fresh : ∀ r ∈ a.asked, r ∉ a.drops → s'.queue.status r = some .waiting
  others : ∀ r < s.queue.rendezvous.length, r ∉ a.signals → r ∉ a.drops →
    s'.queue.status r = s.queue.status r
  isOpen : s'.queue.isOpen = if a.action = .close then false else s.queue.isOpen
  gone : s'.queue.isOpen = false → a.sent = [] ∧ (a.action = .close → s'.queue.pending = [])

theorem moves_of_same (haccounts : a.Accounts)
    (hpending : s.queue.pending ++ a.sent = a.left ++ s'.queue.pending)
    (hquiet : a.asked = [] ∧ a.signals = [] ∧ a.drops = [])
    (hrendezvous : s'.queue.rendezvous = s.queue.rendezvous) (howned : s.owned.Perm s'.owned)
    (hgone : s.queue.isOpen = false → a.sent = []) (hopen : s'.queue.isOpen = s.queue.isOpen)
    (hclose : a.action ≠ .close) : s.Moves a s' := by
  obtain ⟨hasked, hsignals, hdrops⟩ := hquiet
  constructor
  case accounts => exact haccounts
  case pending => exact hpending
  case asked => exact Or.inl hasked
  case length => rw [hrendezvous, hasked, List.length_nil, Nat.add_zero]
  case owners => simpa [hasked, hsignals, hdrops] using howned
  case signalled => simp [hsignals]
  case dropped => simp [hdrops]
  case fresh => simp [hasked]
  case others => exact fun r _ _ _ => congrArg (·[r]?) hrendezvous
  case isOpen => rw [if_neg hclose, hopen]
  case gone => exact fun h => ⟨hgone (hopen ▸ h), fun hc => absurd hc hclose⟩

theorem moves_of_settle {r : RendezvousId} {outcome : Rendezvous} (hs : s.Sound)
    (haccounts : a.Accounts) (hsent : a.sent = [])
    (hpending : s.queue.pending = a.left ++ s'.queue.pending) (hasked : a.asked = [])
    (hsettled : a.signals = [r] ∧ a.drops = [] ∧ outcome = .signalled ∨
      a.signals = [] ∧ a.drops = [r] ∧ outcome = .dropped)
    (hrendezvous : s'.queue.rendezvous = (s.queue.settle r outcome).rendezvous)
    (howned : s.owned.Perm (r :: s'.owned)) (hopen : s'.queue.isOpen = s.queue.isOpen)
    (hclose : a.action ≠ .close) : s.Moves a s' := by
  have hstatus : ∀ r', s'.queue.status r' = (s.queue.settle r outcome).status r' :=
    fun r' => congrArg (·[r']?) hrendezvous
  have hr : s'.queue.status r = some outcome := by
    rw [hstatus]
    exact EventQueue.status_settle_of_waiting
      (hs.waiting r (howned.mem_iff.2 (List.mem_cons_self ..)))
  have hother : ∀ r', r' ≠ r → s'.queue.status r' = s.queue.status r' := fun r' hne =>
    (hstatus r').trans (EventQueue.status_settle_of_ne hne outcome)
  constructor
  case accounts => exact haccounts
  case pending => rw [hsent, List.append_nil, hpending]
  case asked => exact Or.inl hasked
  case length =>
    rw [hrendezvous, EventQueue.length_rendezvous_settle, hasked, List.length_nil, Nat.add_zero]
  case owners =>
    rcases hsettled with ⟨hs, hd, -⟩ | ⟨hs, hd, -⟩ <;> simpa [hasked, hs, hd] using howned
  case signalled => rcases hsettled with ⟨hs, -, rfl⟩ | ⟨hs, -, -⟩ <;> simp [hs, hr]
  case dropped => rcases hsettled with ⟨-, hd, -⟩ | ⟨-, hd, rfl⟩ <;> simp [hd, hr]
  case fresh => simp [hasked]
  case others =>
    intro r' _ hsig hdrop
    refine hother r' ?_
    rintro rfl
    rcases hsettled with ⟨hs, -, -⟩ | ⟨-, hd, -⟩
    · exact hsig (hs ▸ List.mem_singleton_self _)
    · exact hdrop (hd ▸ List.mem_singleton_self _)
  case isOpen => rw [if_neg hclose, hopen]
  case gone => exact fun _ => ⟨hsent, fun hc => absurd hc hclose⟩

theorem moves_of_discard (hs : s.Sound) (haccounts : a.Accounts) (hsent : a.sent = [])
    (hleft : a.left = s.queue.pending) (hasked : a.asked = []) (hsignals : a.signals = [])
    (hdrops : a.drops = a.left.filterMap Event.rendezvous?)
    (hpending : s'.queue.pending = [])
    (hrendezvous : s'.queue.rendezvous = s.queue.clear.2.rendezvous) (hheld : s'.held = s.held)
    (hopen : s'.queue.isOpen = if a.action = .close then false else s.queue.isOpen) :
    s.Moves a s' := by
  have hstatus : ∀ r, s'.queue.status r =
      (s.queue.pending.foldl EventQueue.discard { s.queue with pending := [] }).status r :=
    fun r => congrArg (·[r]?) hrendezvous
  have hdiscard := EventQueue.status_foldl_discard { s.queue with pending := [] } s.queue.pending
  rw [hleft] at hdrops
  constructor
  case accounts => exact haccounts
  case pending => rw [hsent, hleft, hpending]
  case asked => exact Or.inl hasked
  case length =>
    rw [hrendezvous, EventQueue.length_rendezvous_clear, hasked, List.length_nil, Nat.add_zero]
  case owners =>
    unfold owned
    simp [hasked, hsignals, hdrops, hpending, hheld]
  case signalled => simp [hsignals]
  case dropped =>
    intro r hr
    rw [hdrops] at hr
    rw [hstatus]
    exact (hdiscard r).1 hr (hs.waiting r (List.mem_append_left _ hr))
  case fresh => simp [hasked]
  case others =>
    intro r _ _ hr
    rw [hdrops] at hr
    exact (hstatus r).trans ((hdiscard r).2 hr)
  case isOpen => exact hopen
  case gone => exact fun _ => ⟨hsent, fun _ => hpending⟩

theorem post_eq (s : QueueSession) {e : Event} (he : e.rendezvous? = none) :
    s.post e = (.sent s.queue.isOpen, { s with queue := { s.queue with
      pending := s.queue.pending ++ if s.queue.isOpen then [e] else [] } }) := by
  unfold post
  cases ho : s.queue.isOpen with
  | true =>
    rw [EventQueue.post_of_open ho]
    rfl
  | false =>
    have hdiscard : s.queue.discard e = s.queue := by
      cases e with
      | sync r => cases he
      | _ => rfl
    rw [EventQueue.post_of_closed ho, hdiscard, if_neg Bool.false_ne_true, List.append_nil]

theorem owned_post (s : QueueSession) {e : Event} (he : e.rendezvous? = none) :
    (s.post e).2.owned = s.owned := by
  rw [post_eq s he]
  unfold owned
  rw [List.filterMap_append]
  split <;> simp [he]

theorem moves_sync (s : QueueSession) : s.Moves (s.record .sync) (s.step .sync).2 := by
  have hlast : ∀ x : Rendezvous, (s.queue.rendezvous ++ [x])[s.queue.rendezvous.length]? = some x :=
    fun _ => List.getElem?_concat_length
  have hother : ∀ (x : Rendezvous) (r : RendezvousId), r < s.queue.rendezvous.length →
      (s.queue.rendezvous ++ [x])[r]? = s.queue.rendezvous[r]? :=
    fun _ _ => List.getElem?_append_left
  unfold record step leaving
  cases ho : s.queue.isOpen with
  | true =>
    rw [EventQueue.postSync_of_open ho]
    constructor
    case accounts => rfl
    case pending => rfl
    case asked => exact Or.inr rfl
    case length => exact List.length_append
    case owners =>
      have hlast := (List.perm_append_singleton s.queue.rendezvous.length s.held).append_left
        (s.queue.pending.filterMap Event.rendezvous?)
      simpa [owned, QueueStep.asked, QueueStep.signals, QueueStep.drops, Event.rendezvous?]
        using hlast
    case signalled => exact fun _ h => absurd h List.not_mem_nil
    case dropped => exact fun _ h => absurd h List.not_mem_nil
    case fresh => exact fun r hr _ => List.mem_singleton.1 hr ▸ hlast _
    case others => exact fun r hr _ _ => hother _ r hr
    case isOpen => rfl
    case gone => exact fun h => nomatch ho.symm.trans h
  | false =>
    rw [EventQueue.postSync_of_closed ho]
    constructor
    case accounts => rfl
    case pending => exact List.append_nil _
    case asked => exact Or.inr rfl
    case length => exact List.length_append
    case owners => exact List.perm_append_comm
    case signalled => exact fun _ h => absurd h List.not_mem_nil
    case dropped => exact fun r hr => List.mem_singleton.1 hr ▸ hlast _
    case fresh => exact fun _ h hdrop => absurd h hdrop
    case others => exact fun r hr _ _ => hother _ r hr
    case isOpen => rfl
    case gone => exact fun _ => ⟨rfl, nofun⟩

theorem owned_of_pending {e : Event} {rest : List Event} (hp : s.queue.pending = e :: rest) :
    s.owned = e.rendezvous?.toList ++ (rest.filterMap Event.rendezvous? ++ s.held) := by
  unfold owned
  rw [hp]
  cases e <;> rfl

theorem Moves.of_step {action : QueueAction} {reply : QueueReply}
    (hstep : s.step action = (reply, s')) (h : s.Moves ⟨action, reply, s.leaving action⟩ s') :
    s.Moves (s.record action) (s.step action).2 := by
  unfold record
  rw [hstep]
  exact h

theorem moves_take (hs : s.Sound) (d : Disposition) :
    s.Moves (s.record (.take d)) (s.step (.take d)).2 := by
  cases hp : s.queue.pending with
  | nil =>
    have hstep : s.step (.take d) = (.taken none, s) := by
      unfold step EventQueue.take
      rw [hp]
    have hleaving : s.leaving (.take d) = [] := by simp [leaving, hp]
    apply Moves.of_step hstep
    rw [hleaving]
    refine moves_of_same rfl (List.append_nil _) ⟨rfl, ?_, ?_⟩ rfl (.refl _) (fun _ => rfl) rfl
      nofun
    · cases d <;> rfl
    · cases d <;> rfl
  | cons e rest =>
    have hstep : s.step (.take d) = (.taken (some e),
        { s with queue := { s.queue with pending := rest } }.receive d e) := by
      unfold step EventQueue.take
      rw [hp]
    have hleaving : s.leaving (.take d) = [e] := by simp [leaving, hp]
    have howned := owned_of_pending hp
    apply Moves.of_step hstep
    rw [hleaving]
    cases e with
    | sync r =>
      cases d with
      | signal =>
        exact moves_of_settle hs rfl rfl hp rfl (Or.inl ⟨rfl, rfl, rfl⟩) rfl (howned ▸ .refl _) rfl
          nofun
      | drop =>
        exact moves_of_settle hs rfl rfl hp rfl (Or.inr ⟨rfl, rfl, rfl⟩) rfl (howned ▸ .refl _) rfl
          nofun
      | hold =>
        have hlast := List.perm_append_singleton r (rest.filterMap Event.rendezvous? ++ s.held)
        rw [List.append_assoc, List.perm_comm] at hlast
        exact moves_of_same rfl ((List.append_nil _).trans hp) ⟨rfl, rfl, rfl⟩ rfl
          (howned ▸ hlast) (fun _ => rfl) rfl nofun
    | _ =>
      refine moves_of_same rfl ((List.append_nil _).trans hp) ⟨rfl, ?_, ?_⟩ rfl (howned ▸ .refl _)
        (fun _ => rfl) rfl nofun
      · cases d <;> rfl
      · cases d <;> rfl

theorem moves_resolve (hs : s.Sound) (i : Nat) (signalled : Bool) :
    s.Moves (s.record (.resolve i signalled)) (s.step (.resolve i signalled)).2 := by
  have hstep : s.step (.resolve i signalled) =
      s.resolve i (if signalled then .signalled else .dropped) := by
    cases signalled <;> rfl
  unfold resolve at hstep
  cases hi : s.held[i]? with
  | none =>
    rw [hi] at hstep
    refine .of_step hstep (moves_of_same rfl ?_ ⟨rfl, ?_, ?_⟩ rfl (.refl _) (fun _ => rfl) rfl
      nofun)
    · exact List.append_nil _
    · cases signalled <;> rfl
    · cases signalled <;> rfl
  | some r =>
    obtain ⟨hlt, hr⟩ := List.getElem?_eq_some_iff.1 hi
    have howned : s.owned.Perm
        (r :: (s.queue.pending.filterMap Event.rendezvous? ++ s.held.eraseIdx i)) := by
      have hheld := List.getElem_cons_eraseIdx_perm hlt
      rw [hr] at hheld
      exact (hheld.symm.append_left _).trans List.perm_middle
    rw [hi] at hstep
    apply Moves.of_step hstep
    cases signalled with
    | true =>
      exact moves_of_settle hs rfl rfl rfl rfl (Or.inl ⟨rfl, rfl, rfl⟩) rfl howned rfl nofun
    | false =>
      exact moves_of_settle hs rfl rfl rfl rfl (Or.inr ⟨rfl, rfl, rfl⟩) rfl howned rfl nofun

/-- What each action does to a sound session. -/
theorem Sound.moves (hs : s.Sound) (action : QueueAction) :
    s.Moves (s.record action) (s.step action).2 := by
  cases action with
  | dispatch target kind =>
    have he : (Event.dispatch target kind).rendezvous? = none := rfl
    have howned := owned_post s he
    have hstep := post_eq s he
    rw [hstep] at howned
    refine .of_step hstep (moves_of_same rfl ?_ ⟨rfl, rfl, rfl⟩ rfl (howned ▸ .refl _) ?_ rfl
      nofun)
    · cases s.queue.isOpen <;> rfl
    · intro hgone
      rw [hgone]
      rfl
  | retire target =>
    have he : (Event.retire target).rendezvous? = none := rfl
    have howned := owned_post s he
    have hstep := post_eq s he
    rw [hstep] at howned
    refine .of_step hstep (moves_of_same rfl ?_ ⟨rfl, rfl, rfl⟩ rfl (howned ▸ .refl _) ?_ rfl
      nofun)
    · cases s.queue.isOpen <;> rfl
    · intro hgone
      rw [hgone]
      rfl
  | sync => exact moves_sync s
  | take d => exact moves_take hs d
  | resolve i signalled => exact moves_resolve hs i signalled
  | clear =>
    exact moves_of_discard hs rfl rfl rfl rfl rfl rfl (EventQueue.pending_clear _) rfl rfl
      (EventQueue.isOpen_clear _)
  | close =>
    exact moves_of_discard hs trivial rfl rfl rfl rfl rfl (EventQueue.pending_clear _) rfl rfl rfl

theorem reply_post {action : QueueAction} (h : action.posts) :
    (s.step action).1.accepted? = some s.queue.isOpen := by
  cases action with
  | dispatch target kind =>
    have hpost := post_eq s (e := .dispatch target kind) rfl
    exact congrArg (fun p => p.1.accepted?) hpost
  | retire target =>
    have hpost := post_eq s (e := .retire target) rfl
    exact congrArg (fun p => p.1.accepted?) hpost
  | sync =>
    unfold step
    cases ho : s.queue.isOpen with
    | true => rw [EventQueue.postSync_of_open ho]; rfl
    | false => rw [EventQueue.postSync_of_closed ho]; rfl
  | _ => cases h

end QueueSession

end ScriptPlayer
