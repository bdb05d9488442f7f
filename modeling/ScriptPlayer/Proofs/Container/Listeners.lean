import Mathlib.Data.List.Infix
import Mathlib.Data.List.Nodup
import Mathlib.Data.Nat.Find
import Mathlib.Order.Bounds.Basic
import ScriptPlayer.Event.Listeners

/-! One flat list serves the listeners of every type. What it holds after any calls is told from the
calls alone: a pair is listed from the addition that found it absent on, until its removal. -/
namespace ScriptPlayer

inductive ListenerCall where
  | add (kind : String) (f : FunctionId)
  | remove (kind : String) (f : FunctionId)
deriving DecidableEq

namespace ListenerCall

def kind : ListenerCall → String
  | add kind _ => kind
  | remove kind _ => kind

end ListenerCall

namespace Listeners

variable {l : Listeners} {kind : String} {f : FunctionId}

/-! What one call does to the pairs -/

theorem eq_pair_iff {e : String × FunctionId} :
    (e.1 == kind && e.2 == f) = true ↔ e = (kind, f) := by
  rw [Bool.and_eq_true, beq_iff_eq, beq_iff_eq, Prod.ext_iff]

theorem add_of_mem (h : (kind, f) ∈ l.entries) : l.add kind f = l :=
  if_pos (List.any_eq_true.2 ⟨_, h, eq_pair_iff.2 rfl⟩)

theorem add_of_not_mem (h : (kind, f) ∉ l.entries) :
    l.add kind f = ⟨l.entries ++ [(kind, f)]⟩ := by
  refine if_neg fun hany => h ?_
  obtain ⟨e, he, heq⟩ := List.any_eq_true.1 hany
  exact eq_pair_iff.1 heq ▸ he

theorem mem_add {e : String × FunctionId} :
    e ∈ (l.add kind f).entries ↔ e ∈ l.entries ∨ e = (kind, f) := by
  by_cases h : (kind, f) ∈ l.entries
  · rw [add_of_mem h]
    exact ⟨.inl, fun he => he.elim id fun heq => heq ▸ h⟩
  · rw [add_of_not_mem h, List.mem_append, List.mem_singleton]

theorem entries_remove : (l.remove kind f).2.entries = l.entries.filter (· != (kind, f)) := by
  refine List.filter_congr fun e _ => ?_
  rw [bne, Bool.not_inj_iff, Bool.eq_iff_iff, eq_pair_iff, beq_iff_eq]

theorem mem_remove {e : String × FunctionId} :
    e ∈ (l.remove kind f).2.entries ↔ e ∈ l.entries ∧ e ≠ (kind, f) := by
  rw [entries_remove, List.mem_filter, bne_iff_ne]

theorem fst_remove : (l.remove kind f).1 = true ↔ (kind, f) ∈ l.entries := by
  have hlength : (l.remove kind f).1 =
      ((l.remove kind f).2.entries.length != l.entries.length) := rfl
  rw [hlength, entries_remove, bne_iff_ne, Ne, List.length_filter_eq_length_iff]
  simp only [bne_iff_ne, not_forall, not_not]
  exact ⟨fun ⟨e, he, heq⟩ => heq ▸ he, fun h => ⟨_, h, rfl⟩⟩

theorem remove_of_not_mem (h : (kind, f) ∉ l.entries) : l.remove kind f = (false, l) := by
  refine Prod.ext (Bool.eq_false_iff.2 (mt fst_remove.1 h)) ?_
  refine congrArg Listeners.mk (entries_remove.trans (List.filter_eq_self.2 fun e he => ?_))
  exact bne_iff_ne.2 fun heq => h (heq ▸ he)

theorem remove_of_eq_append {before later : List (String × FunctionId)} (h : l.entries.Nodup)
    (hentries : l.entries = before ++ (kind, f) :: later) :
    l.remove kind f = (true, ⟨before ++ later⟩) := by
  have hmem : (kind, f) ∈ l.entries := hentries ▸ List.mem_append_right _ List.mem_cons_self
  refine Prod.ext (fst_remove.2 hmem) (congrArg Listeners.mk (entries_remove.trans ?_))
  rw [← h.erase_eq_filter, hentries, List.erase_append_right, List.erase_cons_head]
  rw [hentries, List.nodup_middle, List.nodup_cons] at h
  exact fun hbefore => h.1 (List.mem_append_left _ hbefore)

theorem nodup_add (h : l.entries.Nodup) (kind : String) (f : FunctionId) :
    (l.add kind f).entries.Nodup := by
  by_cases hmem : (kind, f) ∈ l.entries
  · rwa [add_of_mem hmem]
  · rw [add_of_not_mem hmem]
    exact h.append (List.nodup_singleton _) (List.disjoint_singleton.2 hmem)

theorem nodup_remove (h : l.entries.Nodup) (kind : String) (f : FunctionId) :
    (l.remove kind f).2.entries.Nodup := h.filter _

/-! What one call does to the listeners of a type -/

theorem mem_forKind : f ∈ l.forKind kind ↔ (kind, f) ∈ l.entries := by
  simp [forKind]

theorem pairwise_forKind {R : String × FunctionId → String × FunctionId → Prop}
    (h : l.entries.Pairwise R) (kind : String) :
    (l.forKind kind).Pairwise fun f f' => R (kind, f) (kind, f') := by
  refine List.pairwise_map.2 ((h.filter _).imp_of_mem fun {e e'} he he' hR => ?_)
  have hkind : e.1 = kind := beq_iff_eq.1 (List.mem_filter.1 he).2
  have hkind' : e'.1 = kind := beq_iff_eq.1 (List.mem_filter.1 he').2
  have he : (kind, e.2) = e := Prod.ext hkind.symm rfl
  have he' : (kind, e'.2) = e' := Prod.ext hkind'.symm rfl
  rwa [he, he']

theorem nodup_forKind (h : l.entries.Nodup) (kind : String) : (l.forKind kind).Nodup :=
  (pairwise_forKind h kind).imp fun hne heq => hne (congrArg (Prod.mk kind) heq)

theorem forKind_eq_nil_iff (l : Listeners) (kind : String) :
    l.forKind kind = [] ↔ l.has kind = false := by
  unfold forKind has
  rw [List.map_eq_nil_iff, List.filter_eq_nil_iff, List.any_eq_false]

theorem forKind_add_of_ne {kind' : String} (h : kind' ≠ kind) :
    (l.add kind' f).forKind kind = l.forKind kind := by
  by_cases hmem : (kind', f) ∈ l.entries
  · rw [add_of_mem hmem]
  · rw [add_of_not_mem hmem]
    simp [forKind, List.filter_append, h]

theorem forKind_add_self :
    (l.add kind f).forKind kind =
      if f ∈ l.forKind kind then l.forKind kind else l.forKind kind ++ [f] := by
  by_cases hmem : (kind, f) ∈ l.entries
  · rw [add_of_mem hmem, if_pos (mem_forKind.2 hmem)]
  · rw [add_of_not_mem hmem, if_neg (mt mem_forKind.1 hmem)]
    simp [forKind, List.filter_append]

theorem forKind_remove_of_ne {kind' : String} (h : kind' ≠ kind) :
    (l.remove kind' f).2.forKind kind = l.forKind kind := by
  unfold forKind
  rw [entries_remove, List.filter_filter]
  refine congrArg _ (List.filter_congr fun e _ => ?_)
  -- a pair of this type is not the one taken out
  rw [Bool.eq_iff_iff, Bool.and_eq_true, beq_iff_eq, bne_iff_ne]
  exact ⟨And.left, fun he => ⟨he, fun heq => h ((congrArg Prod.fst heq).symm.trans he)⟩⟩

theorem forKind_remove_self :
    (l.remove kind f).2.forKind kind = (l.forKind kind).filter (· != f) := by
  unfold forKind
  rw [entries_remove, List.filter_filter, List.filter_map, List.filter_filter]
  refine congrArg _ (List.filter_congr fun e _ => ?_)
  rw [Bool.eq_iff_iff, Bool.and_eq_true, Bool.and_eq_true, beq_iff_eq, bne_iff_ne, Ne,
    Function.comp_apply, bne_iff_ne, Prod.ext_iff]
  exact ⟨fun ⟨hkind, hne⟩ => ⟨fun hf => hne ⟨hkind, hf⟩, hkind⟩,
    fun ⟨hne, hkind⟩ => ⟨hkind, fun heq => hne heq.2⟩⟩

/-! Runs of calls -/

def apply (l : Listeners) : ListenerCall → Listeners
  | .add kind f => l.add kind f
  | .remove kind f => (l.remove kind f).2

def after (calls : List ListenerCall) : Listeners := calls.foldl apply empty

variable {calls : List ListenerCall} {c : ListenerCall} {n : Nat}

theorem after_snoc : after (calls ++ [c]) = (after calls).apply c := by
  simp [after, List.foldl_append]

theorem forKind_apply_of_ne (h : c.kind ≠ kind) : (l.apply c).forKind kind = l.forKind kind := by
  cases c with
  | add kind' f => exact forKind_add_of_ne h
  | remove kind' f => exact forKind_remove_of_ne h

theorem forKind_apply_congr {l' : Listeners} (hc : c.kind = kind)
    (h : l.forKind kind = l'.forKind kind) :
    (l.apply c).forKind kind = (l'.apply c).forKind kind := by
  subst hc
  cases c with
  | add kind f => exact forKind_add_self.trans (h ▸ forKind_add_self.symm)
  | remove kind f => exact forKind_remove_self.trans (h ▸ forKind_remove_self.symm)

theorem forKind_after (calls : List ListenerCall) (kind : String) :
    (after calls).forKind kind = (after (calls.filter (·.kind == kind))).forKind kind := by
  induction calls using List.reverseRecOn with
  | nil => rfl
  | append_singleton calls c ih =>
    rw [after_snoc, List.filter_append]
    by_cases hc : c.kind = kind
    · rw [List.filter_singleton, hc, beq_self_eq_true, cond_true, after_snoc]
      exact forKind_apply_congr hc ih
    · rw [List.filter_singleton, beq_false_of_ne hc, cond_false, List.append_nil,
        forKind_apply_of_ne hc]
      exact ih

/-! The additions that stand -/

/-- The `n`th call added the pair, and no later one removed it. -/
def Stands (calls : List ListenerCall) (kind : String) (f : FunctionId) (n : Nat) : Prop :=
  calls[n]? = some (.add kind f) ∧ ∀ m, n < m → calls[m]? ≠ some (.remove kind f)

/-- The pair is listed by the `n`th call. -/
structure StandsSince (calls : List ListenerCall) (kind : String) (f : FunctionId) (n : Nat) :
    Prop where
  added : calls[n]? = some (.add kind f)
  effective : ∀ m < n, calls[m]? = some (.add kind f) →
    ∃ k, m < k ∧ k < n ∧ calls[k]? = some (.remove kind f)
  kept : ∀ m, n < m → calls[m]? ≠ some (.remove kind f)

/-- Of the additions that stand, the first one listed the pair and the others found it. -/
theorem standsSince_iff : StandsSince calls kind f n ↔ IsLeast {m | Stands calls kind f m} n := by
  constructor
  · intro h
    refine ⟨⟨h.added, h.kept⟩, fun m hm => ?_⟩
    by_contra hlt
    obtain ⟨k, hmk, -, hk⟩ := h.effective m (Nat.lt_of_not_le hlt) hm.1
    exact hm.2 k hmk hk
  · rintro ⟨⟨hadded, hkept⟩, hfirst⟩
    refine ⟨hadded, fun m hmn hm => ?_, hkept⟩
    -- an earlier addition does not stand, so a removal came after it, and before the `n`th call
    have hnot : ¬ Stands calls kind f m := fun hs => Nat.not_le_of_lt hmn (hfirst hs)
    simp only [Stands, hm, true_and, not_forall, not_not] at hnot
    obtain ⟨k, hmk, hk⟩ := hnot
    refine ⟨k, hmk, ?_, hk⟩
    rcases Nat.lt_trichotomy k n with hlt | rfl | hgt
    · exact hlt
    · rw [hadded] at hk
      cases hk
    · exact absurd hk (hkept k hgt)

theorem StandsSince.unique {n' : Nat} (h : StandsSince calls kind f n)
    (h' : StandsSince calls kind f n') : n = n' :=
  (standsSince_iff.1 h).unique (standsSince_iff.1 h')

theorem Stands.exists_since (h : Stands calls kind f n) : ∃ m, StandsSince calls kind f m := by
  classical
  have hex : ∃ m, Stands calls kind f m := ⟨n, h⟩
  exact ⟨Nat.find hex, standsSince_iff.2 ⟨Nat.find_spec hex, fun m hm => Nat.find_min' hex hm⟩⟩

theorem StandsSince.lt_length (h : StandsSince calls kind f n) : n < calls.length :=
  (List.getElem?_eq_some_iff.1 h.added).1

theorem getElem?_snoc_iff {c' : ListenerCall} :
    (calls ++ [c])[n]? = some c' ↔ calls[n]? = some c' ∨ n = calls.length ∧ c = c' := by
  rw [List.getElem?_append]
  split
  case isTrue hlt =>
    exact ⟨.inl, fun h => h.resolve_right fun hn => hlt.ne hn.1⟩
  case isFalse hge =>
    rw [List.getElem?_eq_none (Nat.le_of_not_lt hge), List.getElem?_singleton]
    grind

/-- What a further call leaves of the additions that stand. -/
theorem stands_snoc_iff :
    Stands (calls ++ [c]) kind f n ↔
      Stands calls kind f n ∧ c ≠ .remove kind f ∨ n = calls.length ∧ c = .add kind f := by
  unfold Stands
  simp only [Ne, getElem?_snoc_iff]
  constructor
  · rintro ⟨hadd | hlast, hkept⟩
    · have hlt : n < calls.length := (List.getElem?_eq_some_iff.1 hadd).1
      exact .inl ⟨⟨hadd, fun m hm h => hkept m hm (.inl h)⟩, fun hc => hkept _ hlt (.inr ⟨rfl, hc⟩)⟩
    · exact .inr hlast
  · rintro (⟨⟨hadd, hkept⟩, hc⟩ | hlast)
    · exact ⟨.inl hadd, fun m hm h => h.elim (hkept m hm) fun hlast => hc hlast.2⟩
    · refine ⟨.inr hlast, fun m hm h => ?_⟩
      -- nothing comes after the last call
      rcases h with hcall | ⟨rfl, -⟩
      · have hlt : m < calls.length := (List.getElem?_eq_some_iff.1 hcall).1
        omega
      · exact hm.ne hlast.1

theorem StandsSince.snoc (h : StandsSince calls kind f n) (hc : c ≠ .remove kind f) :
    StandsSince (calls ++ [c]) kind f n := by
  have hleast := standsSince_iff.1 h
  refine standsSince_iff.2 ⟨stands_snoc_iff.2 (.inl ⟨hleast.1, hc⟩), fun m hm => ?_⟩
  rcases stands_snoc_iff.1 hm with ⟨hs, -⟩ | ⟨rfl, -⟩
  · exact hleast.2 hs
  · exact h.lt_length.le

theorem standsSince_snoc_new (h : ∀ m, ¬ Stands calls kind f m) :
    StandsSince (calls ++ [.add kind f]) kind f calls.length := by
  refine standsSince_iff.2 ⟨stands_snoc_iff.2 (.inr ⟨rfl, rfl⟩), fun m hm => ?_⟩
  rcases stands_snoc_iff.1 hm with ⟨hs, -⟩ | ⟨rfl, -⟩
  · exact absurd hs (h m)
  · exact le_rfl

/-- Of two pairs, the first was listed before the second. -/
def ListedBefore (calls : List ListenerCall) (e e' : String × FunctionId) : Prop :=
  ∃ n n', StandsSince calls e.1 e.2 n ∧ StandsSince calls e'.1 e'.2 n' ∧ n < n'

theorem ListedBefore.snoc {e e' : String × FunctionId} (h : ListedBefore calls e e')
    (hc : c ≠ .remove e.1 e.2) (hc' : c ≠ .remove e'.1 e'.2) : ListedBefore (calls ++ [c]) e e' :=
  let ⟨n, n', hn, hn', hlt⟩ := h
  ⟨n, n', hn.snoc hc, hn'.snoc hc', hlt⟩

/-- What the list is, told by the calls. -/
structure Follows (calls : List ListenerCall) (l : Listeners) : Prop where
  mem_iff : ∀ kind f, (kind, f) ∈ l.entries ↔ ∃ n, Stands calls kind f n
  ordered : l.entries.Pairwise (ListedBefore calls)

theorem Follows.snoc (h : Follows calls l) : Follows (calls ++ [c]) (l.apply c) := by
  constructor
  case mem_iff =>
    intro kind f
    simp only [stands_snoc_iff, exists_or, exists_and_right, ← h.mem_iff]
    cases c with
    | add kind' f' => simp [apply, mem_add, eq_comm]
    | remove kind' f' => simp [apply, mem_remove, eq_comm]
  case ordered =>
    cases c with
    | remove kind f =>
      have hgone : ∀ e ∈ (l.remove kind f).2.entries,
          ListenerCall.remove kind f ≠ .remove e.1 e.2 := by
        rintro e he heq
        cases heq
        exact (mem_remove.1 he).2 rfl
      refine (h.ordered.filter _).imp_of_mem fun he he' hbefore => ?_
      exact hbefore.snoc (hgone _ he) (hgone _ he')
    | add kind f =>
      have hold : l.entries.Pairwise (ListedBefore (calls ++ [.add kind f])) :=
        h.ordered.imp fun hbefore => hbefore.snoc (by simp) (by simp)
      by_cases hmem : (kind, f) ∈ l.entries
      · rwa [apply, add_of_mem hmem]
      · have hnone : ∀ m, ¬ Stands calls kind f m := fun m hm => hmem ((h.mem_iff kind f).2 ⟨m, hm⟩)
        rw [apply, add_of_not_mem hmem]
        refine List.pairwise_append.2 ⟨hold, List.pairwise_singleton _ _, fun e he e' he' => ?_⟩
        obtain rfl := List.mem_singleton.1 he'
        obtain ⟨m, hm⟩ := (h.mem_iff e.1 e.2).1 he
        obtain ⟨n, hn⟩ := hm.exists_since
        exact ⟨n, calls.length, hn.snoc (by simp), standsSince_snoc_new hnone, hn.lt_length⟩

theorem follows_after (calls : List ListenerCall) : Follows calls (after calls) := by
  induction calls using List.reverseRecOn with
  | nil => exact ⟨fun kind f => by simp [after, empty, Stands], List.Pairwise.nil⟩
  | append_singleton calls c ih => exact after_snoc ▸ ih.snoc

theorem standsSince_iff_absent :
    StandsSince calls kind f n ↔
      Stands calls kind f n ∧ (kind, f) ∉ (after (calls.take n)).entries := by
  have htake : ∀ m c, (calls.take n)[m]? = some c ↔ m < n ∧ calls[m]? = some c := fun m c => by
    rw [List.getElem?_take]
    split <;> simp_all
  rw [(follows_after (calls.take n)).mem_iff]
  simp only [Stands, htake, Ne, not_exists, not_and, not_forall, not_not]
  constructor
  · intro h
    refine ⟨⟨h.added, h.kept⟩, fun m ⟨hmn, hm⟩ => ?_⟩
    obtain ⟨k, hmk, hkn, hk⟩ := h.effective m hmn hm
    exact ⟨k, hmk, hkn, hk⟩
  · rintro ⟨⟨hadded, hkept⟩, habsent⟩
    refine ⟨hadded, fun m hmn hm => ?_, hkept⟩
    obtain ⟨k, hmk, hkn, hk⟩ := habsent m ⟨hmn, hm⟩
    exact ⟨k, hmk, hkn, hk⟩

theorem nodup_after (calls : List ListenerCall) : (after calls).entries.Nodup := by
  induction calls using List.reverseRecOn with
  | nil => exact List.nodup_nil
  | append_singleton calls c ih =>
    rw [after_snoc]
    cases c with
    | add kind f => exact nodup_add ih kind f
    | remove kind f => exact nodup_remove ih kind f

/-- What holds of a listener list after calls on a new one. -/
structure Lists (calls : List ListenerCall) (l : Listeners) : Prop where
  /-- No pair is listed twice. -/
  nodup : l.entries.Nodup
  add_present : ∀ kind f, (kind, f) ∈ l.entries → l.add kind f = l
  add_absent : ∀ kind f, (kind, f) ∉ l.entries → l.add kind f = ⟨l.entries ++ [(kind, f)]⟩
  remove_present : ∀ kind f, (kind, f) ∈ l.entries → ∃ before later,
    l.entries = before ++ (kind, f) :: later ∧ l.remove kind f = (true, ⟨before ++ later⟩)
  remove_absent : ∀ kind f, (kind, f) ∉ l.entries → l.remove kind f = (false, l)
  has_iff : ∀ kind, l.has kind = true ↔ l.forKind kind ≠ []
  /-- An addition is effective when it finds the pair absent. -/
  since_iff : ∀ kind f n, StandsSince calls kind f n ↔
    Stands calls kind f n ∧ (kind, f) ∉ (after (calls.take n)).entries
  /-- The functions of a type are those with an effective addition and no removal since, -/
  mem_forKind : ∀ kind f, f ∈ l.forKind kind ↔ ∃! n, StandsSince calls kind f n
  /-- in the order of these additions. -/
  ordered : ∀ kind, (l.forKind kind).Pairwise fun f f' => ListedBefore calls (kind, f) (kind, f')
  others : ∀ kind, l.forKind kind = (after (calls.filter (·.kind == kind))).forKind kind

/-- A listener list is told by the calls on it. -/
theorem lists (calls : List ListenerCall) : Lists calls (after calls) := by
  have hfollows : Follows calls (after calls) := follows_after calls
  constructor
  case nodup => exact nodup_after calls
  case add_present => exact fun _ _ => add_of_mem
  case add_absent => exact fun _ _ => add_of_not_mem
  case remove_present =>
    intro kind f hmem
    obtain ⟨before, later, hentries⟩ := List.append_of_mem hmem
    exact ⟨before, later, hentries, remove_of_eq_append (nodup_after calls) hentries⟩
  case remove_absent => exact fun _ _ => remove_of_not_mem
  case has_iff =>
    intro kind
    rw [Ne, forKind_eq_nil_iff, Bool.not_eq_false]
  case since_iff => exact fun _ _ _ => standsSince_iff_absent
  case mem_forKind =>
    intro kind f
    rw [Listeners.mem_forKind, hfollows.mem_iff]
    constructor
    · rintro ⟨m, hm⟩
      obtain ⟨n, hn⟩ := hm.exists_since
      exact ⟨n, hn, fun n' hn' => hn'.unique hn⟩
    · exact fun ⟨n, hn, _⟩ => ⟨n, hn.added, hn.kept⟩
  case ordered => exact pairwise_forKind hfollows.ordered
  case others => exact forKind_after calls

example :
    (after [.add "a" 1, .add "b" 1, .add "a" 2, .remove "a" 1, .add "a" 1, .add "a" 2]).entries =
      [("b", 1), ("a", 2), ("a", 1)] := by decide

end Listeners

end ScriptPlayer
