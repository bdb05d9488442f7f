import Mathlib.Data.List.Infix
import ScriptPlayer.QName

/-! The text of a qualified name, and which names can be read back from it. Reading splits at the
last separator, so what matters is whether the local name brings a separator of its own. -/
namespace ScriptPlayer.QName

variable {sep cs before after : List Char}

theorem splitLast_eq_none_iff (hsep : sep ≠ []) : splitLast sep cs = none ↔ ¬sep <:+: cs := by
  induction cs with
  | nil => simp [splitLast, hsep]
  | cons c cs ih =>
    rw [List.infix_cons_iff, not_or, splitLast]
    cases hs : splitLast sep cs with
    | some p =>
      have hin : sep <:+: cs := by_contra fun hout => by simp [ih.2 hout] at hs
      simp [hin]
    | none =>
      rw [← List.isPrefixOf_iff_prefix]
      simp [ih.1 hs]

theorem splitLast_append {c : Char} {s : List Char} (before after : List Char) :
    splitLast (c :: s) (before ++ (c :: s ++ after)) =
      match splitLast (c :: s) (s ++ after) with
      | none => some (before, after)
      | some (more, rest) => some (before ++ c :: more, rest) := by
  induction before with
  | nil =>
    have hfront : (c :: s).isPrefixOf (c :: (s ++ after)) = true :=
      List.isPrefixOf_iff_prefix.2 (List.prefix_append (c :: s) after)
    rw [List.nil_append, List.cons_append, splitLast]
    cases splitLast (c :: s) (s ++ after) with
    | none => simp [hfront]
    | some p => rfl
  | cons b before ih =>
    rw [List.cons_append, splitLast, ih]
    cases splitLast (c :: s) (s ++ after) <;> rfl

theorem length_of_splitLast (h : splitLast sep cs = some (before, after)) (hsep : sep ≠ []) :
    after.length < cs.length := by
  induction cs generalizing before with
  | nil => cases h
  | cons c cs ih =>
    rw [splitLast] at h
    split at h
    · rename_i b a hs
      obtain ⟨-, rfl⟩ := Prod.mk.inj (Option.some.inj h)
      exact Nat.lt_succ_of_lt (ih hs)
    · split at h
      · obtain ⟨-, rfl⟩ := Prod.mk.inj (Option.some.inj h)
        have hpos := List.length_pos_iff.2 hsep
        rw [List.length_drop, List.length_cons]
        omega
      · cases h

/-- The local name has no separator of its own: no `::` and, after a namespace, no colon at the
front, which would make one with the separator before it; without a namespace no point either. -/
def Recoverable (q : QName) : Prop :=
  ¬[':', ':'] <:+: q.name.toList ∧
    if q.ns = "" then '.' ∉ q.name.toList else q.name.toList.head? ≠ some ':'

def dotted (q : QName) : String := q.ns ++ "." ++ q.name

theorem colons_infix_cons_iff :
    [':', ':'] <:+: ':' :: cs ↔ cs.head? = some ':' ∨ [':', ':'] <:+: cs := by
  rw [List.infix_cons_iff]
  refine or_congr_left ?_
  cases cs with
  | nil => simp
  | cons c cs => simp [eq_comm]

theorem colons_infix_point (h : [':', ':'] <:+: before ++ '.' :: after) :
    [':', ':'] <:+: before ∨ [':', ':'] <:+: after := by
  induction before with
  | nil =>
    rw [List.nil_append, List.infix_cons_iff] at h
    exact Or.inr (h.resolve_left (by simp))
  | cons c before ih =>
    rw [List.cons_append, List.infix_cons_iff] at h
    rw [List.infix_cons_iff]
    rcases h with h | h
    · cases before with
      | nil => simp at h
      | cons c' before => exact Or.inl (Or.inl (by simpa using h))
    · exact (ih h).imp_left Or.inr

theorem toList_toText {q : QName} (h : q.ns ≠ "") :
    q.toText.toList = q.ns.toList ++ ([':', ':'] ++ q.name.toList) := by
  rw [toText, if_neg h, String.toList_append, String.toList_append, List.append_assoc]
  rfl

theorem toList_dotted (q : QName) :
    q.dotted.toList = q.ns.toList ++ (['.'] ++ q.name.toList) := by
  rw [dotted, String.toList_append, String.toList_append, List.append_assoc]
  rfl

theorem parse_of_ns {q : QName} (h : q.ns ≠ "") :
    parse q.toText = q ↔ splitLast [':', ':'] (':' :: q.name.toList) = none := by
  rw [parse, toList_toText h, splitLast_append]
  change _ ↔ splitLast [':', ':'] ([':'] ++ q.name.toList) = none
  cases splitLast [':', ':'] ([':'] ++ q.name.toList) with
  | none => simp
  | some p =>
    refine ⟨fun heq => ?_, nofun⟩
    have hlength := congrArg (fun q : QName => q.ns.toList.length) heq
    simp at hlength

/-- Without a namespace any separator leads astray. -/
theorem parse_pub (name : String) : parse name = pub name ↔
    splitLast [':', ':'] name.toList = none ∧ splitLast ['.'] name.toList = none := by
  have hshorter : ∀ {sep before after}, sep ≠ [] →
      splitLast sep name.toList = some (before, after) →
      (⟨String.ofList before, String.ofList after⟩ : QName) ≠ pub name := by
    intro sep before after hsep hs heq
    have hlt := length_of_splitLast hs hsep
    rw [← (QName.mk.inj heq).2, String.toList_ofList] at hlt
    exact Nat.lt_irrefl _ hlt
  rw [parse]
  cases hc : splitLast [':', ':'] name.toList with
  | some p => simpa using hshorter (by simp) hc
  | none =>
    cases hp : splitLast ['.'] name.toList with
    | some p => simpa using hshorter (by simp) hp
    | none => simp

/-- A name is read back from its text just if its local name has no separator of its own. -/
theorem parse_toText_iff (q : QName) : parse q.toText = q ↔ q.Recoverable := by
  rw [Recoverable, ← splitLast_eq_none_iff (by simp)]
  by_cases hns : q.ns = ""
  · obtain ⟨ns, name⟩ := q
    obtain rfl : ns = "" := hns
    rw [if_pos rfl, ← List.singleton_infix_iff, ← splitLast_eq_none_iff (by simp)]
    exact parse_pub name
  · rw [parse_of_ns hns, if_neg hns, splitLast_eq_none_iff (by simp),
      splitLast_eq_none_iff (by simp), colons_infix_cons_iff, not_or, and_comm]

theorem parse_dotted {q : QName} (hns : ¬[':', ':'] <:+: q.ns.toList)
    (hname : ¬[':', ':'] <:+: q.name.toList) (hpoint : '.' ∉ q.name.toList) :
    parse q.dotted = q := by
  have hcolons : splitLast [':', ':'] q.dotted.toList = none := by
    rw [splitLast_eq_none_iff (by simp), toList_dotted]
    exact fun h => (colons_infix_point h).elim hns hname
  have hlast : splitLast ['.'] ([] ++ q.name.toList) = none := by
    rw [splitLast_eq_none_iff (by simp), List.singleton_infix_iff]
    exact hpoint
  rw [parse, hcolons, toList_dotted, splitLast_append, hlast]
  simp

end ScriptPlayer.QName
