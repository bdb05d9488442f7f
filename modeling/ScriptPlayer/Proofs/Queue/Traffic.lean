import Mathlib.Data.List.Induction
import ScriptPlayer.Proofs.Queue.Session

/-! Any sequence of actions on a fresh event queue. No event is lost or leaves the queue twice, and
a rendezvous has one owner until it is settled, so its waiter learns whether it was signalled. -/
namespace ScriptPlayer

open QueueLog

/-- What has happened to a queue accounts for every event and every rendezvous. -/
structure QueueAccount (l : List QueueStep) (s : QueueSession) : Prop where
  sound : s.Sound
  accounts : ∀ a ∈ l, a.Accounts
  conserved : sent l = left l ++ s.queue.pending
  waiters : asked l = List.range s.queue.rendezvous.length
  /-- each rendezvous that was asked for is signalled or dropped once, or has one owner -/
  owners : (List.range s.queue.rendezvous.length).Perm (signals l ++ drops l ++ s.owned)
  signalled : ∀ r ∈ signals l, s.queue.status r = some .signalled
  dropped : ∀ r ∈ drops l, s.queue.status r = some .dropped
  isOpen : s.queue.isOpen = true ↔ ∀ a ∈ l, a.action ≠ .close

theorem QueueSession.Moves.range_eq {s s' : QueueSession} {a : QueueStep} (hm : s.Moves a s') :
    List.range s'.queue.rendezvous.length =
      List.range s.queue.rendezvous.length ++ a.asked := by
  rw [hm.length]
  rcases hm.asked with hnone | hone
  · rw [hnone, List.length_nil, Nat.add_zero, List.append_nil]
  · rw [hone]
    exact List.range_succ

namespace QueueAccount

variable {l : List QueueStep} {s s' : QueueSession} {a : QueueStep} {r : RendezvousId}

theorem lt_length (h : QueueAccount l s) (hr : r ∈ signals l ++ drops l ++ s.owned) :
    r < s.queue.rendezvous.length :=
  List.mem_range.1 (h.owners.mem_iff.2 hr)

theorem owners_snoc (h : QueueAccount l s) (hm : s.Moves a s') :
    (List.range s'.queue.rendezvous.length).Perm
      (signals (l ++ [a]) ++ drops (l ++ [a]) ++ s'.owned) := by
  rw [hm.range_eq, List.perm_iff_count]
  intro r
  have hold := h.owners.count_eq r
  have hnew := hm.owners.count_eq r
  simp only [signals, drops, List.flatMap_append, List.flatMap_singleton, List.count_append]
    at hold hnew ⊢
  omega

/-- No rendezvous is in two places. -/
theorem count_le_one (h : QueueAccount l s) (hm : s.Moves a s') (r : RendezvousId) :
    (signals l).count r + a.signals.count r + (drops l).count r + a.drops.count r +
      s'.owned.count r ≤ 1 := by
  have hsignals : signals (l ++ [a]) = signals l ++ a.signals := by simp [signals]
  have hdrops : drops (l ++ [a]) = drops l ++ a.drops := by simp [drops]
  have hnodup := (h.owners_snoc hm).nodup_iff.1 List.nodup_range
  have hone := List.nodup_iff_count_le_one.1 hnodup r
  simp only [hsignals, hdrops, List.count_append] at hone
  omega

theorem status_of_settled (h : QueueAccount l s) (hm : s.Moves a s')
    (hr : r ∈ signals l ++ drops l) : s'.queue.status r = s.queue.status r := by
  have hsettled := List.count_pos_iff.2 hr
  have hone := h.count_le_one hm r
  rw [List.count_append] at hsettled
  have hs : r ∉ a.signals := List.count_eq_zero.1 (by omega)
  have hd : r ∉ a.drops := List.count_eq_zero.1 (by omega)
  exact hm.others r (h.lt_length (List.mem_append_left _ hr)) hs hd

theorem sound_snoc (h : QueueAccount l s) (hm : s.Moves a s') : s'.Sound := by
  refine ⟨fun r hr => ?_, fun hgone => ?_⟩
  · have hlive := List.count_pos_iff.2 hr
    have hone := h.count_le_one hm r
    have hs : r ∉ a.signals := List.count_eq_zero.1 (by omega)
    have hd : r ∉ a.drops := List.count_eq_zero.1 (by omega)
    rcases List.mem_append.1 (hm.owners.mem_iff.2 (List.mem_append_right _ hr)) with hr | hr
    · have hold := hm.others r (h.lt_length (List.mem_append_right _ hr)) hs hd
      exact hold.trans (h.sound.waiting r hr)
    · exact hm.fresh r hr hd
  · obtain ⟨hsent, hclose⟩ := hm.gone hgone
    by_cases hc : a.action = .close
    · exact hclose hc
    · have hempty := h.sound.gone (by rw [← hgone, hm.isOpen, if_neg hc])
      have hpending := hm.pending
      rw [hsent, hempty, List.append_nil, eq_comm, List.append_eq_nil_iff] at hpending
      exact hpending.2

theorem isOpen_snoc (h : QueueAccount l s) (hm : s.Moves a s') :
    s'.queue.isOpen = true ↔ ∀ b ∈ l ++ [a], b.action ≠ .close := by
  rw [hm.isOpen]
  by_cases hc : a.action = .close
  · rw [if_pos hc]
    exact ⟨nofun, fun hall => absurd hc (hall a (by simp))⟩
  · rw [if_neg hc, h.isOpen]
    refine ⟨fun hall b hb => ?_, fun hall b hb => hall b (List.mem_append_left _ hb)⟩
    rcases List.mem_append.1 hb with hb | hb
    · exact hall b hb
    · exact List.mem_singleton.1 hb ▸ hc

theorem snoc (h : QueueAccount l s) (hm : s.Moves a s') : QueueAccount (l ++ [a]) s' := by
  constructor
  case sound => exact h.sound_snoc hm
  case accounts =>
    intro b hb
    rcases List.mem_append.1 hb with hb | hb
    · exact h.accounts b hb
    · exact List.mem_singleton.1 hb ▸ hm.accounts
  case conserved =>
    have hsent : sent (l ++ [a]) = sent l ++ a.sent := by simp [sent]
    have hleft : left (l ++ [a]) = left l ++ a.left := by simp [left]
    rw [hsent, hleft, h.conserved, List.append_assoc, hm.pending, List.append_assoc]
  case waiters =>
    have hasked : asked (l ++ [a]) = asked l ++ a.asked := by simp [asked]
    rw [hasked, h.waiters, hm.range_eq]
  case owners => exact h.owners_snoc hm
  case signalled =>
    intro r hr
    have hsignals : signals (l ++ [a]) = signals l ++ a.signals := by simp [signals]
    rw [hsignals] at hr
    rcases List.mem_append.1 hr with hr | hr
    · exact (h.status_of_settled hm (List.mem_append_left _ hr)).trans (h.signalled r hr)
    · exact hm.signalled r hr
  case dropped =>
    intro r hr
    have hdrops : drops (l ++ [a]) = drops l ++ a.drops := by simp [drops]
    rw [hdrops] at hr
    rcases List.mem_append.1 hr with hr | hr
    · exact (h.status_of_settled hm (List.mem_append_right _ hr)).trans (h.dropped r hr)
    · exact hm.dropped r hr
  case isOpen => exact h.isOpen_snoc hm

end QueueAccount

namespace QueueSession

theorem account (acts : List QueueAction) : QueueAccount (play acts).1 (play acts).2 := by
  induction acts using List.reverseRecOn with
  | nil =>
    constructor
    case sound => exact ⟨fun _ h => absurd h List.not_mem_nil, fun _ => rfl⟩
    case isOpen => exact ⟨fun _ _ h => absurd h List.not_mem_nil, fun _ => rfl⟩
    case owners => exact .refl _
    case conserved => rfl
    case waiters => rfl
    all_goals exact fun _ h => absurd h List.not_mem_nil
  | append_singleton acts a ih =>
    rw [play_snoc]
    exact ih.snoc (ih.sound.moves a)

theorem actions_play (acts : List QueueAction) : (play acts).1.map QueueStep.action = acts := by
  induction acts using List.reverseRecOn with
  | nil => rfl
  | append_singleton acts a ih =>
    rw [play_snoc, List.map_append, ih]
    rfl

end QueueSession

/-- What any sequence of actions on a fresh queue comes to; `l` is their record and `s` what is left
of the queue. -/
structure QueueTraffic (acts : List QueueAction) (l : List QueueStep) (s : QueueSession) :
    Prop where
  recorded : l.map QueueStep.action = acts
  /-- events are received in the order in which they were posted -/
  fifo : (taken l).Sublist (sent l)
  /-- every event that was posted left the queue in one step, or is still in it -/
  conserved : sent l = left l ++ s.queue.pending
  accounts : ∀ a ∈ l, a.Accounts
  size : (sent l).length = (left l).length + s.queue.size
  /-- a post fails if the queue is gone, and only then -/
  accepts : ∀ a : QueueAction, a.posts →
    (s.step a).1.accepted? = some (decide (QueueAction.close ∉ acts))
  /-- the rendezvous are numbered in the order in which the producers asked for them -/
  waiters : asked l = List.range s.queue.rendezvous.length
  /-- each of them is signalled once, dropped once, or has one owner -/
  owners : (asked l).Perm (signals l ++ drops l ++ s.owned)
  signalled : ∀ r ∈ asked l, s.queue.waitResult? r = some true ↔ r ∈ signals l
  dropped : ∀ r ∈ asked l, s.queue.waitResult? r = some false ↔ r ∈ drops l
  blocked : ∀ r ∈ asked l, s.queue.waitResult? r = none ↔ r ∈ s.owned
  /-- what was queued when the queue went away has left it, and nothing comes after it -/
  emptied : QueueAction.close ∈ acts → s.queue.pending = []
  released : QueueAction.close ∈ acts → s.held = [] →
    ∀ r ∈ asked l, s.queue.waitResult? r ≠ none

namespace QueueAccount

variable {l : List QueueStep} {s : QueueSession} {r : RendezvousId}

theorem status_cases (h : QueueAccount l s) (hr : r ∈ asked l) :
    r ∈ signals l ∧ s.queue.status r = some .signalled ∨
      r ∈ drops l ∧ s.queue.status r = some .dropped ∨
        r ∈ s.owned ∧ s.queue.status r = some .waiting := by
  rw [h.waiters] at hr
  rcases List.mem_append.1 (h.owners.mem_iff.1 hr) with hr | hr
  · rcases List.mem_append.1 hr with hr | hr
    · exact Or.inl ⟨hr, h.signalled r hr⟩
    · exact Or.inr (Or.inl ⟨hr, h.dropped r hr⟩)
  · exact Or.inr (Or.inr ⟨hr, h.sound.waiting r hr⟩)

theorem waitResult?_eq_none (h : QueueAccount l s) (hr : r ∈ asked l) :
    s.queue.waitResult? r = none ↔ r ∈ s.owned := by
  unfold EventQueue.waitResult?
  constructor
  · intro hnone
    rcases h.status_cases hr with ⟨-, hs⟩ | ⟨-, hs⟩ | ⟨hmem, -⟩
    · rw [hs] at hnone
      cases hnone
    · rw [hs] at hnone
      cases hnone
    · exact hmem
  · intro hmem
    rw [h.sound.waiting r hmem]

theorem taken_sublist (h : QueueAccount l s) : (taken l).Sublist (left l) := by
  have hstep : ∀ a ∈ l, a.taken.Sublist a.left := by
    intro a ha
    have haccounts := h.accounts a ha
    unfold QueueStep.Accounts at haccounts
    unfold QueueStep.taken
    split at haccounts <;> simp_all
  clear h
  induction l with
  | nil => exact List.Sublist.slnil
  | cons a l ih =>
    have hrest := ih fun b hb => hstep b (List.mem_cons_of_mem a hb)
    simpa [taken, left] using (hstep a (List.mem_cons_self ..)).append hrest

end QueueAccount

namespace QueueSession

theorem traffic (acts : List QueueAction) : QueueTraffic acts (play acts).1 (play acts).2 := by
  have h := account acts
  have hactions := actions_play acts
  have hclose : (∀ a ∈ (play acts).1, a.action ≠ .close) ↔ QueueAction.close ∉ acts := by
    have hmem := List.mem_map (f := QueueStep.action) (b := .close) (l := (play acts).1)
    rw [hactions] at hmem
    rw [hmem, not_exists]
    exact forall_congr' fun a => not_and.symm
  have hgone : (play acts).2.queue.isOpen = decide (QueueAction.close ∉ acts) := by
    rw [Bool.eq_iff_iff, h.isOpen, decide_eq_true_iff, hclose]
  have hemptied : QueueAction.close ∈ acts → (play acts).2.queue.pending = [] := fun hc =>
    h.sound.gone (by rw [hgone, decide_eq_false (not_not_intro hc)])
  constructor
  case recorded => exact hactions
  case fifo => exact h.taken_sublist.trans (h.conserved ▸ List.sublist_append_left _ _)
  case conserved => exact h.conserved
  case accounts => exact h.accounts
  case size => rw [h.conserved, List.length_append, EventQueue.size]
  case accepts => exact fun a ha => (reply_post ha).trans (congrArg some hgone)
  case waiters => exact h.waiters
  case owners => exact h.waiters ▸ h.owners
  case signalled =>
    intro r hr
    rw [EventQueue.waitResult?_eq_true]
    refine ⟨fun hs => ?_, h.signalled r⟩
    rcases h.status_cases hr with ⟨hmem, -⟩ | ⟨-, hs'⟩ | ⟨-, hs'⟩
    · exact hmem
    · cases hs.symm.trans hs'
    · cases hs.symm.trans hs'
  case dropped =>
    intro r hr
    rw [EventQueue.waitResult?_eq_false]
    refine ⟨fun hs => ?_, h.dropped r⟩
    rcases h.status_cases hr with ⟨-, hs'⟩ | ⟨hmem, -⟩ | ⟨-, hs'⟩
    · cases hs.symm.trans hs'
    · exact hmem
    · cases hs.symm.trans hs'
  case blocked => exact fun r hr => h.waitResult?_eq_none hr
  case emptied => exact hemptied
  case released =>
    intro hc hheld r hr
    rw [ne_eq, h.waitResult?_eq_none hr, owned, hemptied hc, hheld]
    exact List.not_mem_nil

/-- A rendezvous is received and held, a second one is dropped with the queue, and a third one comes
too late; the one that was held can still be signalled. -/
example :
    let (l, s) := play [.sync, .take .hold, .dispatch 0 timerKind, .sync, .close, .sync,
      .resolve 0 true]
    asked l = [0, 1, 2] ∧ signals l = [0] ∧ drops l = [1, 2] ∧
      [0, 1, 2].map s.queue.waitResult? = [some true, some false, some false] := by
  decide

end QueueSession

end ScriptPlayer
