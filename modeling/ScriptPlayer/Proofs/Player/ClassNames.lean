import ScriptPlayer.Proofs.Player.Session
import ScriptPlayer.Proofs.Text.QualifiedName
import ScriptPlayer.Proofs.World.Globals

/-! Classes by name. The qualified name of a class leads back to the class for as long as the name
is bound to it and can be read back, and a name that cannot be read back is read as another one. -/
namespace ScriptPlayer

open World Run

/-- Names against classes, in one world. -/
structure ClassNames (w : World) : Prop where
  /-- Registering a class gives it its name and binds the name to it. -/
  registered : ∀ d c w', w.registerClass d = .ok (c, w') →
    w'.classes.nameOf c = d.name ∧ w'.IsBound c
  /-- Only a definition of its name as something else unbinds a class. -/
  kept : ∀ c w', c < w.classes.size → w.IsBound c → Step w w' →
    w'.IsBound c ∨ ∃ v, v ≠ .classRef c ∧ w' = w.defineGlobal (w.classes.nameOf c) v
  inverse : ∀ c, w.IsBound c → (w.classes.nameOf c).Recoverable →
    w.definition (w.qualifiedClassName (.classRef c)) = .ok (.classRef c)
  exact : ∀ c text, w.qualifiedClassName (.classRef c) = .string text →
    (QName.parse text = w.classes.nameOf c ↔ (w.classes.nameOf c).Recoverable)
  dotted : ∀ c, w.IsBound c → (w.classes.nameOf c).Recoverable → (w.classes.nameOf c).ns ≠ "" →
    ¬[':', ':'] <:+: (w.classes.nameOf c).ns.toList → '.' ∉ (w.classes.nameOf c).name.toList →
    w.definition (.string (w.classes.nameOf c).dotted) = .ok (.classRef c)

namespace World

variable {w : World} {c : ClassId} {text : String}

theorem IsBound.definition_eq (h : w.IsBound c) (hp : QName.parse text = w.classes.nameOf c) :
    w.definition (.string text) = .ok (.classRef c) := by
  unfold IsBound at h
  simp only [definition, hp, h]

theorem globals_withPlaces (w : World) (n : Nat) : (w.withPlaces n).globals = w.globals := rfl

theorem classNames_of_wellFormed (hw : w.globals.WellFormed) : ClassNames w where
  registered _ _ _ hreg := isBound_of_register hw hreg
  kept _ _ hc hb hstep := hb.step hw hc hstep
  inverse _ hb hr := hb.definition_eq ((QName.parse_toText_iff _).2 hr)
  exact c text htext := by
    rw [← Value.string.inj htext]
    exact QName.parse_toText_iff _
  dotted _ hb hr _ hns hpoint := hb.definition_eq (QName.parse_dotted hns hr.1 hpoint)

end World

variable {s : State}

theorem State.Reachable.wellFormed_globals (h : s.Reachable) : s.world.globals.WellFormed := by
  induction h with
  | core places budget moves =>
    rw [globals_withPlaces]
    exact steps_initial.1.wellFormed_globals PropertyMap.wellFormed_empty
  | player o threads places budget moves =>
    rw [globals_withPlaces]
    exact (steps_ofOptions o threads).1.wellFormed_globals PropertyMap.wellFormed_empty
  | embed h depth p budget moves ih =>
    obtain ⟨hs, hst⟩ := h.sound
    exact (steps_embed hs hst depth p).wellFormed_globals ih

theorem State.Reachable.classNames (h : s.Reachable) : ClassNames s.world :=
  classNames_of_wellFormed h.wellFormed_globals

def colonNames : Session :=
  .ask (.perform (.registerClass (.ofName ⟨"a:", "N"⟩ none))) fun _ =>
  .ask (.perform (.registerClass (.ofName ⟨"a", ":N"⟩ none))) fun _ => .done

theorem classNames_colonNames :
    let start : State := ⟨World.initial.withPlaces 0, [], 9, []⟩
    let s : State := { start.afterRun (embed 1 colonNames) with budget := 9, interference := [] }
    s.Reachable ∧ s.world.classes.nameOf 4 = ⟨"a:", "N"⟩ ∧ s.world.IsBound 4 ∧
      s.world.classes.nameOf 5 = ⟨"a", ":N"⟩ ∧ s.world.IsBound 5 ∧ ClassNames s.world := by
  intro start s
  have h : s.Reachable := .embed (.core 0 9 []) 1 colonNames 9 []
  have hbound : ∀ c ∈ [4, 5], s.world.globals.get? (s.world.classes.nameOf c) =
      some (.classRef c) := by decide +kernel
  exact ⟨h, by decide +kernel, hbound 4 (by simp), by decide +kernel, hbound 5 (by simp),
    State.Reachable.classNames h⟩

end ScriptPlayer
