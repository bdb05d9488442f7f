import ScriptPlayer.Proofs.Video.Cues

/-! Which stream the picture in front is of. Renders read the stream that is attached, but the
decoder goes on with the one that was attached when the size was locked, so the picture stays with
that one. -/
namespace ScriptPlayer

namespace VideoEvent

/-- What becomes of the stream that is attached, with whether a tick has come since. -/
def attach (a : Option (SourceId × Bool)) : VideoEvent → Option (SourceId × Bool)
  | attached source => if a.map Prod.fst = some source then a else some (source, false)
  | ticked .. => a.map fun p => (p.1, true)
  | _ => a

def attachment (l : List VideoEvent) : Option (SourceId × Bool) := l.foldl attach none

end VideoEvent

open VideoEvent World

/-- The picture follows the attached stream: what is presented after a tick is a picture of it. -/
def Follows (l : List VideoEvent) : Prop :=
  ∀ k seen source, k ++ [rendered seen .presented] <+: l → attachment k = some (source, true) →
    ∃ r, reel (k ++ [rendered seen .presented]) = some r ∧ r.front.source = source

/-- When something is presented that has to be of the attached stream, that is the one that has
locked the size. -/
def OpeningAttached (l : List VideoEvent) : Prop :=
  ∀ k seen source r, k ++ [rendered seen .presented] <+: l → attachment k = some (source, true) →
    reel l = some r → r.opening.source = source

/-- What is in front is always a picture of the source that has locked the size. So the picture
follows the attached stream just as long as that is the stream of this source. -/
structure ShowsOpening (o : ObjectId) (l : List VideoEvent) (w : World) : Prop where
  front : ∀ r, reel l = some r → ∃ v, w.video? o = some v ∧ v.front = r.print r.front ∧
    r.front.source = r.opening.source
  follows_iff : Follows l ↔ OpeningAttached l

theorem PlayerStep.foldl_prefix {o : ObjectId} {w w' : World} {k j : List VideoEvent}
    (h : PlayerStep o w k w') (hj : j <+: k) (r : Option Reel) :
    j.foldl edit r = r ∨ j.foldl edit r = k.foldl edit r := by
  have hpair : ∀ {e : VideoEvent}, j <+: [e, .elsewhere] →
      j.foldl edit r = r ∨ j.foldl edit r = [e, .elsewhere].foldl edit r := by
    intro e hj
    obtain rfl | ⟨j', rfl, hj'⟩ := List.prefix_cons_iff.1 hj
    · exact .inl rfl
    · obtain rfl | ⟨j'', rfl, hj''⟩ := List.prefix_cons_iff.1 hj'
      · exact .inr rfl
      · rw [List.prefix_nil.1 hj'']
        exact .inr rfl
  have hsingle : ∀ {e : VideoEvent}, j <+: [e] →
      j.foldl edit r = r ∨ j.foldl edit r = [e].foldl edit r := fun hj =>
    hpair (hj.trans ⟨[.elsewhere], rfl⟩)
  cases h with
  | elsewhere | attach | change => exact hsingle hj
  | decode | render => exact hpair hj

namespace PlayerHistory

variable {o : ObjectId} {l k : List VideoEvent} {w : World} {r : Reel}

/-- The reel at any moment is that of a history. -/
theorem exists_of_prefix (h : PlayerHistory o l w) (hk : k <+: l) :
    ∃ l' w', PlayerHistory o l' w' ∧ reel k = reel l' := by
  induction h with
  | fresh h ht =>
    rw [List.prefix_nil.1 hk]
    exact ⟨[], _, .fresh h ht, rfl⟩
  | @snoc l k' w w' h hs ih =>
    rcases List.prefix_or_prefix_of_prefix hk (List.prefix_append l k') with hk' | ⟨j, rfl⟩
    · exact ih hk'
    · rw [reel_append]
      -- inside the last step the reel is either still as before or already as after it
      rcases hs.foldl_prefix ((List.prefix_append_right_inj l).1 hk) (reel l) with hj | hj
      · exact ⟨l, w, h, hj⟩
      · exact ⟨l ++ k', w', h.snoc hs, hj.trans (reel_append l k').symm⟩

theorem front_source (h : PlayerHistory o l w) (hk : k <+: l) (hr : reel k = some r) :
    r.front.source = r.opening.source := by
  obtain ⟨l', w', h', heq⟩ := h.exists_of_prefix hk
  obtain ⟨v, -, hserved⟩ := h'.served
  rw [← heq, hr] at hserved
  exact hserved.front

theorem exists_reel_presented {seen : Option Shot} (h : PlayerHistory o l w)
    (hk : k ++ [rendered seen .presented] <+: l) :
    ∃ r r', reel (k ++ [rendered seen .presented]) = some r ∧ reel l = some r' ∧
      r.front.source = r'.opening.source := by
  have hhistory := h.history
  obtain ⟨j, rfl⟩ := hk
  obtain ⟨w₁, w₂, h₁, hs⟩ := (List.append_assoc k _ j ▸ hhistory).split_at
  obtain ⟨v, hp⟩ := h₁.plays
  obtain ⟨v', hrendered, -⟩ := hs.render_plays hp
  obtain ⟨r, hr⟩ := hrendered.exists_edit nofun
  rw [← reel_snoc] at hr
  obtain ⟨r', hr', hopening⟩ := hhistory.opening_eq hr
  exact ⟨r, r', hr, hr', (h.front_source (List.prefix_append _ j) hr).trans
    (congrArg Shot.source hopening.symm)⟩

theorem follows_of_openingAttached (h : PlayerHistory o l w) (hl : OpeningAttached l) :
    Follows l := by
  intro k seen source hk ha
  obtain ⟨r, r', hr, hr', hfront⟩ := h.exists_reel_presented hk
  exact ⟨r, hr, hfront.trans (hl k seen source r' hk ha hr')⟩

theorem openingAttached_of_follows (h : PlayerHistory o l w) (hf : Follows l) :
    OpeningAttached l := by
  intro k seen source r hk ha hr
  obtain ⟨r₁, hr₁, hsource⟩ := hf k seen source hk ha
  obtain ⟨r₂, r', hr₂, hr', hfront⟩ := h.exists_reel_presented hk
  obtain rfl := Option.some.inj (hr₁.symm.trans hr₂)
  obtain rfl := Option.some.inj (hr.symm.trans hr')
  exact hfront.symm.trans hsource

theorem showsOpening (h : PlayerHistory o l w) : ShowsOpening o l w where
  front r hr := by
    obtain ⟨v, hp⟩ := h.history.plays
    rw [hr] at hp
    exact ⟨v, hp.video, hp.holds.front, h.front_source List.prefix_rfl hr⟩
  follows_iff := ⟨h.openingAttached_of_follows, h.follows_of_openingAttached⟩

end PlayerHistory

def secondStream : List VideoCue :=
  [.attach (studio.place 0), .render, .attach (studio.place 1), .move (.start 0), .move (.step 0),
    .move (.step 0), .move (.step 0), .render]

theorem showsOpening_secondStream : ∃ l w, PlayerHistory 23 l w ∧
    l.filterMap outcome? = [.started 41666667, .presented] ∧ ShowsOpening 23 l w := by
  obtain ⟨l, w, h, houtcomes⟩ := exists_of_playVideo secondStream
    (fun l _ => l.filterMap outcome? == [.started 41666667, .presented]) (by decide +kernel)
  exact ⟨l, w, h, eq_of_beq houtcomes, PlayerHistory.showsOpening h⟩

/-- The second stream is attached, but what is in front is a picture of the first. -/
theorem not_follows_secondStream : ∃ l w v, PlayerHistory 23 l w ∧
    w.sources.map (fun f => (f.width, f.height, f.picture 8)) =
      [(2, 1, List.replicate 8 1), (2, 1, List.replicate 8 2)] ∧
    ¬Follows l ∧ w.video? 23 = some v ∧ v.stream = some 1 ∧ v.front = List.replicate 8 1 := by
  obtain ⟨l, w, h, hseen⟩ := exists_of_playVideo secondStream
    (fun l w => attachment (l.take 9) == some (1, true) &&
      l[9]?.bind outcome? == some .presented &&
      (reel (l.take 10)).map (·.front.source) == some 0 &&
      w.sources.map (fun f => (f.width, f.height, f.picture 8)) ==
        [(2, 1, List.replicate 8 1), (2, 1, List.replicate 8 2)] &&
      (w.video? 23).map (fun v => (v.stream, v.front)) == some (some 1, List.replicate 8 1))
    (by decide +kernel)
  simp only [Bool.and_eq_true, beq_iff_eq] at hseen
  obtain ⟨⟨⟨⟨hattached, houtcome⟩, hsource⟩, hsources⟩, hvideo⟩ := hseen
  obtain ⟨e, he, hpresented⟩ := Option.bind_eq_some_iff.1 houtcome
  obtain ⟨seen, rfl⟩ := outcome?_eq_some.1 hpresented
  obtain ⟨v, hv, hfront⟩ := Option.map_eq_some_iff.1 hvideo
  simp only [Prod.mk.injEq] at hfront
  have htake : l.take 9 ++ [rendered seen .presented] = l.take (9 + 1) := by
    rw [@List.take_add_one _ l 9, he]
    rfl
  refine ⟨l, w, v, h, hsources, fun hf => ?_, hv, hfront.1, hfront.2⟩
  obtain ⟨r, hr, hfirst⟩ := hf (l.take 9) seen 1 (htake ▸ List.take_prefix 10 l) hattached
  rw [htake] at hr
  rw [hr] at hsource
  exact nomatch (Option.some.inj hsource).symm.trans hfirst

end ScriptPlayer
