import ObjectBridge.Proofs.Arena.Staying
import ObjectBridge.Proofs.Call.Course
import ObjectBridge.Proofs.Lifetime.Sweep
import ObjectBridge.Proofs.Run.Mirror

/-!
# Operations that follow one another

Every operation follows the same operation in the other state, if the bodies that it runs follow each other and objects
get their native states in ways that follow each other (`Mirror.Makes`).

* `Mirror.Makes` — what is left to show for the ways in which objects get their native states.
* `materialize_cases` — what has been done when an object has its native state.
* `follows_materialize_of_settles` — objects whose native states are the same in both states.
* `follows_dup`, `follows_construct`, `follows_call`, `follows_trigger` and their companions — the operations.
-/

namespace ObjectBridge

open Run Mirror

/-- Bodies and deferred constructors follow one another. -/
structure Mirror.Makes (M : Mirror) (exec exec' : Exec) : Prop where
  bodies : M.FollowsAll exec exec'
  materialize : ∀ h operation s s',
    M.Follows (Lifetime.materialize exec h operation) (Lifetime.materialize exec' h operation) s s'
  /-- An object that has its native state has the same one in both states when another object has got its own. -/
  stays : ∀ {r h operation s s' t t'}, M.Between s s' → Arena.Made r s.arena → Arena.Made r s'.arena →
    (Lifetime.materialize exec h operation).outcome s = (.ok (), t) →
    (Lifetime.materialize exec' h operation).outcome s' = (.ok (), t') → Arena.Settled r t.arena t'.arena

variable {M : Mirror} {s s' : State} {exec exec' : Exec}

namespace Lifetime

/-! ## Objects and handles -/

theorem follows_register {new new' : NewInstance} (hsame : new' = { new with native := new'.native })
    (hnative : M.native s.classes new.cls new.native new'.native) :
    M.Follows (register new) (register new') s s' := by
  refine follows_of_between fun hs => follows_get (follows_bind_ofExcept (hs.arena.register hsame hnative) ?_)
  rintro ⟨h, a⟩ ⟨h', a'⟩ hreg hreg' ⟨hhandle, htwin⟩
  obtain rfl : h' = h := hhandle
  exact (follows_setArena htwin (Arena.spares_register hreg) (Arena.spares_register hreg')).map

theorem follows_registerAs {c c' : ClassInfo} (houtline : c'.outline = c.outline) {native native' : Option NativeState}
    (hnative : M.native s.classes c.id native native') (keep : Keep) (overrides : Option Overrides) :
    M.Follows (registerAs c native keep overrides) (registerAs c' native' keep overrides) s s' := by
  have hid : c'.id = c.id := (congrArg (fun o : ClassInfo => o.id) houtline :)
  have hname : c'.name = c.name := (congrArg (fun o : ClassInfo => o.name) houtline :)
  have hkind : c'.kind = c.kind := (congrArg (fun o : ClassInfo => o.kind) houtline :)
  refine follows_register ?_ hnative
  rw [hid, hname, hkind]

/-- The class with a number, apart from its constructors. -/
theorem descriptor_matched {t t' : ClassTable} (h : t.Alike t') (cls : ClassId) :
    Matched (fun c c' : ClassInfo => c'.outline = c.outline) (t.descriptor cls) (t'.descriptor cls) := by
  have hget := h.get?_eq cls
  unfold ClassTable.descriptor
  cases hc : t.get? cls with
  | none =>
      rw [hc] at hget
      rw [Option.map_eq_none_iff.mp hget]
      exact .error _
  | some c =>
      rw [hc] at hget
      obtain ⟨c', hc', houtline⟩ := Option.map_eq_some_iff.mp hget
      rw [hc']
      exact .ok houtline

theorem follows_create (cls : ClassId) (native : NativeState) (keep : Keep) :
    M.Follows (create cls native keep) (create cls native keep) s s' := by
  refine follows_of_between fun hs => follows_get (follows_bind_ofExcept (descriptor_matched hs.classes cls) ?_)
  intro c c' _ _ houtline
  rw [hs.classes.overrides_eq]
  exact follows_registerAs houtline (M.native_some _ _ _) keep _

theorem follows_bind_resolve {α : Type} {h : Handle} {operation : String} {f f' : Instance → Run α}
    (hf : ∀ i i', s.arena.get? h.target = some i → s'.arena.get? h.target = some i' →
      i.Twin (M.native s.classes) i' → M.Follows (f i) (f' i') s s') :
    M.Follows (resolve h operation >>= f) (resolve h operation >>= f') s s' := by
  have hassoc (f : Instance → Run α) : (resolve h operation >>= f) =
      (MonadState.get >>= fun s => Run.ofExcept (s.arena.resolve h operation) >>= f) := by
    rw [resolve, bind_assoc]
  rw [hassoc, hassoc]
  refine follows_of_between fun hs => follows_get (follows_bind_ofExcept (hs.arena.resolve h operation) ?_)
  intro i i' hi hi' htwin
  exact hf i i' (Arena.resolve_eq_ok_iff.mp hi) (Arena.resolve_eq_ok_iff.mp hi') htwin

theorem follows_issue? (inHand : List Handle) (r : Reference) (c : Constness) :
    M.Follows (issue? inHand r c) (issue? inHand r c) s s' := by
  refine follows_of_between fun hs => follows_get ?_
  -- The same proxies are held on both sides, so both reissue or both make a fresh one.
  have hissue := hs.arena.issue (inHand ++ s.handles) r c
  rw [(hs.sameProxies.append_left inHand).issue_eq]
  cases hfirst : s.arena.issue (inHand ++ s.handles) r c with
  | none =>
      rw [hfirst] at hissue
      generalize s'.arena.issue (inHand ++ s.handles) r c = o at hissue ⊢
      cases hissue
      exact follows_pure none
  | some issued =>
      rw [hfirst] at hissue
      generalize hsecond : s'.arena.issue (inHand ++ s.handles) r c = o at hissue ⊢
      obtain ⟨h, a⟩ := issued
      cases hissue with
      | @some _ issued' hsame =>
          obtain ⟨h', a'⟩ := issued'
          obtain ⟨hhandle, htwin⟩ := hsame
          obtain rfl : h' = h := hhandle
          exact (follows_setArena htwin (Arena.spares_issue hfirst) (Arena.spares_issue hsecond)).map

theorem follows_issueFor (h : Handle) (c : Constness) : M.Follows (issueFor h c) (issueFor h c) s s' :=
  (follows_issue? [h] h.target c).bind fun _ _ _ _ _ => follows_orFail _ rfl

theorem follows_upgrade (r : Reference) : M.Follows (upgrade r) (upgrade r) s s' :=
  follows_issue? [] r .keep

theorem follows_setKeep (h : Handle) (keep : Keep) (operation : String) :
    M.Follows (do Run.setArena (← Run.ofExcept ((← get).arena.setKeep h keep operation)))
      (do Run.setArena (← Run.ofExcept ((← get).arena.setKeep h keep operation))) s s' := by
  refine follows_of_between fun hs => follows_get (follows_bind_ofExcept (hs.arena.setKeep h keep operation) ?_)
  intro a a' hkeep hkeep' htwin
  exact follows_setArena htwin (Arena.spares_setKeep hkeep) (Arena.spares_setKeep hkeep')

theorem follows_manage (h : Handle) : M.Follows (manage h) (manage h) s s' :=
  follows_setKeep h .managed "_manage"

theorem follows_unmanage (h : Handle) : M.Follows (unmanage h) (unmanage h) s s' :=
  follows_setKeep h .unmanaged "_unmanage"

theorem follows_occupant (cls : ClassId) (name : String) : M.Follows (occupant cls name) (occupant cls name) s s' := by
  have hsplit : occupant cls name = (MonadState.get >>= fun s : State =>
      match (s.seat cls name).occupant with
      | none => pure none
      | some r => issue? [] r .nonConst) := by
    refine eq_of_outcome_eq fun s => ?_
    rw [occupant, outcome_get_bind, outcome_get_bind, Seat.current]
    cases (s.seat cls name).occupant <;> rfl
  rw [hsplit]
  refine follows_of_between fun hs => follows_get ?_
  have hseat : s'.seat cls name = s.seat cls name := hs.congr (fun s => s.seat cls name) fun _ _ _ => rfl
  rw [hseat]
  cases (s.seat cls name).occupant with
  | none => exact follows_pure none
  | some r => exact follows_issue? [] r .nonConst

/-! ## Removals -/

theorem follows_destroy (hremoves : M.removes) (h : Handle) : M.Follows (destroy h) (destroy h) s s' := by
  refine follows_of_between fun hs => follows_get (follows_bind_ofExcept (hs.arena.destroy h) ?_)
  rintro ⟨i, a⟩ ⟨i', a'⟩ hdes hdes' htwin hs' _
  have hpath {b b' : Arena} {j : Instance} (hgone : b.destroy h = .ok (j, b')) : b.Path b' :=
    .single (.destroy h.target j (Arena.destroy_eq_ok_iff.mp hgone))
  exact ⟨rfl, hs'.setArena htwin (M.kept_path hremoves hs'.kept (hpath hdes) (hpath hdes')), rfl⟩

/-- Seating an object does the same to both arenas. -/
theorem install_matched {N : NativeRel} {a a' : Arena} (ht : a.Twin N a') (seat : Seat) (next : Option Handle) :
    Matched (fun left left' => left'.2.1 = left.2.1 ∧ left.2.2.Twin N left'.2.2)
      (seat.install a next) (seat.install a' next) := by
  have hevict {b b' : Arena} (hb : b.Twin N b') : (seat.evict b).2.Twin N (seat.evict b').2 := by
    unfold Seat.evict
    cases seat.occupant with
    | none => exact hb
    | some r =>
        have hgone := hb.destroy? r
        simp only [Option.bind_some]
        generalize b.destroy? r = o, b'.destroy? r = o' at hgone
        cases hgone with
        | none => exact hb
        | some hremoved => exact hremoved.2
  cases next with
  | none => exact .ok ⟨rfl, hevict ht⟩
  | some h =>
      unfold Seat.install
      dsimp only
      split
      · exact .ok ⟨rfl, ht⟩
      · refine (ht.setKeep h .unmanaged "install").bind fun b b' _ hb => .ok ⟨rfl, ?_⟩
        exact hevict hb

theorem follows_install (hremoves : M.removes) (cls : ClassId) (name : String) (next : Option Handle) :
    M.Follows (install cls name next) (install cls name next) s s' := by
  refine follows_of_between fun hs => follows_get ?_
  have hseat : s'.seat cls name = s.seat cls name := hs.congr (fun s => s.seat cls name) fun _ _ _ => rfl
  rw [hseat]
  refine follows_bind_ofExcept (install_matched hs.arena (s.seat cls name) next) ?_
  rintro ⟨i, seat, a⟩ ⟨i', seat', a'⟩ hins hins' ⟨hsame, htwin⟩ hs' _
  obtain rfl : seat' = seat := hsame
  have hkept : M.kept s.classes a a' :=
    M.kept_path hremoves hs'.kept (does_install hins).path (does_install hins').path
  have hseats : M.Between { s with seats := put (cls, name) seat' s.seats }
      { s' with seats := put (cls, name) seat' s'.seats } :=
    hs'.update (fun s => { s with seats := put (cls, name) seat' s.seats }) (fun _ _ _ => rfl) id hs'.inside
  exact ⟨rfl, hseats.setArena htwin hkept, rfl⟩

/-- What a pass removes is removed from both arenas. -/
theorem removeAll_twin {N : NativeRel} {a a' : Arena} (ht : a.Twin N a') (removed : Nat) (rs : List Reference) :
    (removeAll a' removed rs).2 = (removeAll a removed rs).2 ∧
      (removeAll a removed rs).1.Twin N (removeAll a' removed rs).1 := by
  induction rs generalizing a a' removed with
  | nil => exact ⟨rfl, ht⟩
  | cons r rest ih =>
      have hgone := ht.destroy? r
      unfold removeAll
      generalize a.destroy? r = o, a'.destroy? r = o' at hgone
      cases hgone with
      | none => exact ih ht removed
      | some hremoved => exact ih hremoved.2 (removed + 1)

/-- A pass takes one step after the other. -/
theorem path_removeAll (a : Arena) (removed : Nat) (rs : List Reference) : a.Path (removeAll a removed rs).1 := by
  induction rs generalizing a removed with
  | nil => exact .refl
  | cons r rest ih =>
      unfold removeAll
      split
      · rename_i i b hdes
        exact (ih b (removed + 1)).head (.destroy r i hdes)
      · exact ih a removed

theorem between_sweep (hremoves : M.removes) (hs : M.Between s s') (passes removed : Nat) :
    (sweep passes s' removed).2 = (sweep passes s removed).2 ∧
      M.Between (sweep passes s removed).1 (sweep passes s' removed).1 ∧
      (sweep passes s removed).1.frames = s.frames := by
  induction passes generalizing s s' removed with
  | zero => exact ⟨rfl, hs, rfl⟩
  | succ passes ih =>
      unfold sweep
      rw [hs.sameProxies.collectable_eq, hs.arena.collectable_eq]
      cases s.arena.collectable s.handles with
      | nil => exact ⟨rfl, hs, rfl⟩
      | cons r rest =>
          obtain ⟨hcount, htwin⟩ := removeAll_twin hs.arena removed (r :: rest)
          have hkept := M.kept_path hremoves hs.kept (path_removeAll s.arena removed (r :: rest))
            (path_removeAll s'.arena removed (r :: rest))
          dsimp only
          rw [hcount]
          exact ih (hs.setArena htwin hkept) (removeAll s.arena removed (r :: rest)).2

theorem follows_reclaim (hremoves : M.removes) : M.Follows reclaim reclaim s s' := by
  refine follows_tick.bind fun _ t t' _ _ => ?_
  refine follows_of_between fun ht => follows_get ?_
  obtain ⟨hcount, hswept, hframes⟩ := between_sweep hremoves ht sweepPasses 0
  intro _ _
  have hleft := hswept.update (fun s => { s with constructions := 0 }) (fun _ _ _ => rfl) id hswept.inside
  exact ⟨congrArg Except.ok hcount, hleft, hframes⟩

/-- To count a construction changes no class. -/
theorem classes_of_holding_countConstruction {values : List Value} {t : State}
    (hrun : (holding values countConstruction).outcome s = (.ok (), t)) : t.classes = s.classes := by
  obtain ⟨u, hcount, rfl⟩ := exists_of_outcome_holding hrun
  show u.classes = (withHeld s values).classes
  generalize withHeld s values = w at hcount
  rw [outcome_countConstruction] at hcount
  split at hcount
  · rw [← (Prod.mk.inj hcount).2]
  · split at hcount
    · obtain ⟨n, v, hreclaim, hpure⟩ := exists_of_outcome_bind hcount
      obtain ⟨-, rfl⟩ := eq_of_outcome_pure hpure
      obtain ⟨_, x, htick, hreclaim⟩ := exists_of_outcome_bind hreclaim
      have hx : x.classes = w.classes := by
        rw [outcome_tick] at htick
        split at htick <;> cases htick <;> rfl
      obtain ⟨gone, hsweep, -⟩ := sweep_spec sweepPasses x 0
      rw [outcome_get_bind, hsweep] at hreclaim
      cases hreclaim
      exact hx
    · rw [← (Prod.mk.inj hcount).2]

theorem follows_countConstruction : M.Follows countConstruction countConstruction s s' := by
  refine follows_of_between fun hs => follows_get ?_
  obtain ⟨w, l, rfl⟩ : ∃ w l, s' = { s with toWorld := w, log := l } := ⟨_, _, hs.eq⟩
  dsimp only
  split
  · exact follows_pure _
  · rename_i hdue
    -- A sweep is due only where no body runs, and there objects may be removed.
    have hremoves : M.removes := by
      refine hs.inside.resolve_right fun hframes => hdue (Or.inr ?_)
      simpa using hframes
    refine Follows.bind (fun hs' _ => ⟨rfl, ?_, rfl⟩) fun _ t t' _ _ => ?_
    · exact hs'.update (fun u => { u with constructions := u.constructions + 1 }) (fun _ _ _ => rfl) id hs'.inside
    · split
      · exact (follows_reclaim hremoves).map
      · exact follows_pure _

/-! ## Native states -/

theorem follows_runNative (hexec : M.FollowsAll exec exec') (recv : Option Handle) (args : List Value) (code : Code) :
    M.Follows (runNative exec recv args code) (runNative exec' recv args code) s s' :=
  Follows.inNativeFrame fun _ _ => Follows.activate (hexec code)

/-- An object of a class whose objects have the same native states gets the same one, if the class has the same
deferred constructor and no object of another class has taken its place meanwhile. -/
theorem follows_materialize_of_settles (hexec : M.FollowsAll exec exec') {h : Handle} {operation : String}
    (hstart : ∀ i, s.arena.get? h.target = some i →
      (M.native s.classes).Settles i.cls ∧ s'.classes.findLazy i.cls = s.classes.findLazy i.cls)
    (hrun : ∀ i code body t, s.arena.get? h.target = some i → i.isMaterialized = false →
      (runNative exec none [] code).outcome s = (.ok body, t) →
      ∀ j, t.arena.get? h.target = some j → (M.native t.classes).Settles j.cls) :
    M.Follows (materialize exec h operation) (materialize exec' h operation) s s' := by
  refine follows_bind_resolve fun i i' hi hi' htwin => ?_
  obtain ⟨hsettles, hlazy⟩ := hstart i hi
  obtain rfl : i' = i := htwin.eq_of_settles hsettles
  split
  · exact follows_pure _
  · rename_i hnone
    refine follows_get (follows_bind_orFail_same hlazy _ fun deferred _ => ?_)
    refine (follows_runNative hexec none [] deferred.code).bind fun body t t' hbody _ => ?_
    refine follows_bind_same rfl fun state _ => follows_of_between fun ht => follows_get ?_
    have hmade (j j' : Instance) (hj : t.arena.get? h.target = some j) (hj' : t'.arena.get? h.target = some j') :
        j'.isMaterialized = j.isMaterialized := by
      obtain ⟨k, hk, hsame⟩ := ht.arena.exists_get? hj
      obtain rfl := Option.some.inj (hj'.symm.trans hk)
      rw [hsame.eq_of_settles (hrun i' _ _ _ hi (Bool.eq_false_iff.mpr hnone) hbody j hj)]
    refine follows_bind_ofExcept (ht.arena.materialize (M.native_some _) hmade state) fun a a' hmat hmat' hsame => ?_
    exact follows_setArena hsame (Arena.spares_materialize hmat) (Arena.spares_materialize hmat')

/-- An object has its native state already, or its deferred constructor runs, and yields the state that the object gets
then. -/
theorem materialize_cases {h : Handle} {operation : String} {t : State}
    (hrun : (materialize exec h operation).outcome s = (.ok (), t)) :
    ∃ i, s.arena.get? h.target = some i ∧
      (i.isMaterialized = true ∧ t = s ∨
        ∃ (code : Code) (body : Activation) (u : State) (state : NativeState) (a : Arena),
          i.isMaterialized = false ∧ (runNative exec none [] code).outcome s = (.ok body, u) ∧
            u.arena.materialize h.target state = .ok a ∧ t = { u with arena := a }) := by
  obtain ⟨i, u, hresolve, hrest⟩ := exists_of_outcome_bind hrun
  obtain ⟨rfl, hi⟩ : u = s ∧ s.arena.get? h.target = some i := by
    rw [resolve, outcome_get_bind] at hresolve
    obtain ⟨hok, rfl⟩ := eq_of_outcome_ofExcept hresolve
    exact ⟨rfl, Arena.resolve_eq_ok_iff.mp hok⟩
  refine ⟨i, hi, ?_⟩
  split at hrest
  · rename_i hmade
    obtain ⟨-, rfl⟩ := eq_of_outcome_pure hrest
    exact Or.inl ⟨hmade, rfl⟩
  · rename_i hnone
    rw [outcome_get_bind] at hrest
    obtain ⟨deferred, v, hlazy, hrest⟩ := exists_of_outcome_bind hrest
    obtain ⟨-, rfl⟩ := eq_of_outcome_orFail hlazy
    obtain ⟨body, w, hbody, hrest⟩ := exists_of_outcome_bind hrest
    obtain ⟨state, x, hstate, hrest⟩ := exists_of_outcome_bind hrest
    obtain ⟨-, rfl⟩ := eq_of_outcome_ofExcept hstate
    rw [outcome_get_bind] at hrest
    obtain ⟨a, y, hmat, hset⟩ := exists_of_outcome_bind hrest
    obtain ⟨hok, rfl⟩ := eq_of_outcome_ofExcept hmat
    cases hset
    exact Or.inr ⟨deferred.code, body, _, state, a, Bool.eq_false_iff.mpr hnone, hbody, hok, rfl⟩

/-- An operation goes on with an object that has its native state. -/
theorem made_of_materialize {h : Handle} {operation : String} {t : State}
    (hrun : (materialize exec h operation).outcome s = (.ok (), t)) : Arena.Made h.target t.arena := by
  obtain ⟨i, hi, ⟨hmade, rfl⟩ | ⟨code, body, u, state, a, -, -, hmat, rfl⟩⟩ := materialize_cases hrun
  · exact ⟨i, hi, hmade⟩
  · exact Arena.made_of_materialize hmat

/-- An object that has its native state in both states has the same one. -/
theorem settled_of_made (hs : M.Between s s') {r : Reference} (hmade : Arena.Made r s.arena)
    (hmade' : Arena.Made r s'.arena) : Arena.Settled r s.arena s'.arena := by
  obtain ⟨j, hj, hstate⟩ := hmade
  obtain ⟨j', hj', hstate'⟩ := hmade'
  intro i i' hi hi'
  obtain rfl := Option.some.inj (hi.symm.trans hj)
  obtain rfl := Option.some.inj (hi'.symm.trans hj')
  obtain ⟨k, hk, htwin⟩ := hs.arena.exists_get? hi
  obtain rfl := Option.some.inj (hi'.symm.trans hk)
  obtain ⟨x, hx⟩ := Option.isSome_iff_exists.mp hstate
  obtain ⟨y, hy⟩ := Option.isSome_iff_exists.mp hstate'
  have hrelated := htwin.native
  rw [hx, hy] at hrelated ⊢
  rw [M.native_inj hrelated]

/-- Objects that differ in nothing but a native state that is the same. -/
theorem eq_of_settled {N : NativeRel} {r : Reference} {a a' : Arena} (hsettled : Arena.Settled r a a')
    {i i' : Instance} (hi : a.get? r = some i) (hi' : a'.get? r = some i') (htwin : i.Twin N i') : i' = i := by
  rw [htwin.eq, hsettled i i' hi hi']

section Bodies

variable (hmakes : M.Makes exec exec')

include hmakes

/-- An operation goes on with an object that has got its native state. -/
theorem follows_materialize_bind {α : Type} {h : Handle} {operation : String} {f f' : PUnit → Run α}
    (hf : ∀ t t', Arena.Made h.target t.arena → Arena.Made h.target t'.arena →
      Arena.Settled h.target t.arena t'.arena → M.Follows (f ⟨⟩) (f' ⟨⟩) t t') :
    M.Follows (materialize exec h operation >>= f) (materialize exec' h operation >>= f') s s' := by
  refine (hmakes.materialize h operation s s').bind fun _ t t' hrun hrun' => follows_of_between fun ht => ?_
  have hmade := made_of_materialize hrun
  have hmade' := made_of_materialize hrun'
  exact hf t t' hmade hmade' (settled_of_made ht hmade hmade')

theorem follows_dup (h : Handle) : M.Follows (dup exec h) (dup exec' h) s s' := by
  refine follows_materialize_bind hmakes fun t t' _ _ hsettled => ?_
  refine follows_bind_resolve fun i i' hi hi' htwin => ?_
  obtain rfl := eq_of_settled hsettled hi hi' htwin
  refine follows_bind_orFail_same rfl _ fun copy _ => follows_of_between fun ht => follows_get ?_
  refine follows_bind_ofExcept (descriptor_matched ht.classes i'.cls) fun c c' _ _ houtline => ?_
  exact follows_registerAs houtline (M.native_some _ _ _) .managed _

theorem follows_typedState (h : Handle) (type operation : String) :
    M.Follows (typedState exec h type operation) (typedState exec' h type operation) s s' := by
  refine follows_materialize_bind hmakes fun t t' _ _ hsettled => ?_
  refine follows_bind_resolve fun i i' hi hi' htwin => ?_
  obtain rfl := eq_of_settled hsettled hi hi' htwin
  exact follows_orFail _ rfl

omit hmakes in
/-- A native state is replaced by another one. -/
theorem spares_setNative {a : Arena} {r : Reference} {i : Instance} {state : NativeState} (hi : a.get? r = some i)
    (hnative : i.native = some state) (next : NativeState) : a.Spares (a.setNative r next) := by
  refine Arena.spares_modify fun j hj => Arena.outline_native next ?_
  obtain rfl := Option.some.inj (hj.symm.trans hi)
  simp [Instance.isMaterialized, hnative]

theorem follows_modifyNative (h : Handle) (type : String) (f : NativeState → NativeState) :
    M.Follows (modifyNative exec h type f) (modifyNative exec' h type f) s s' := by
  refine follows_of_between fun hs => follows_get (follows_unless ?_ fun _ => ?_)
  · rw [hs.twin.isConst_eq]
  · refine (follows_typedState hmakes h type "native_mut").bind fun state t t' hstate hstate' => ?_
    obtain ⟨i, hi, hnative⟩ := exists_native_of_typedState hstate
    obtain ⟨i', hi', hnative'⟩ := exists_native_of_typedState hstate'
    refine follows_of_between fun ht => follows_get ?_
    exact follows_setArena (ht.arena.setNative (M.native_some _) h.target (f state))
      (spares_setNative hi hnative _) (spares_setNative hi' hnative' _)

omit hmakes in
/-- The states of two objects that have the same ones. -/
theorem pair?_eq {N : NativeRel} {target source : Reference} {a a' : Arena} (ht : a.Twin N a')
    (htarget : Arena.Settled target a a') (hsource : Arena.Settled source a a') :
    a'.pair? target source = a.pair? target source := by
  have hsame {r : Reference} (hsettled : Arena.Settled r a a') : a'.get? r = a.get? r := by
    cases hi : a.get? r with
    | none => exact ht.get?_eq_none hi
    | some i =>
        obtain ⟨i', hi', htwin⟩ := ht.exists_get? hi
        rw [hi', eq_of_settled hsettled hi hi' htwin]
  rw [Arena.pair?, Arena.pair?, hsame htarget, hsame hsource]

end Bodies

/-- Both objects get their native states before anything else is done with them. -/
theorem follows_materialize_pair (hmakes : M.Makes exec exec') {α : Type} {h k : Handle} {operation : String}
    {f : PUnit → Run α} (hf : ∀ t t', M.Between t t' → Arena.Settled h.target t.arena t'.arena →
      Arena.Settled k.target t.arena t'.arena → M.Follows (f ⟨⟩) (f ⟨⟩) t t') :
    M.Follows (materialize exec h operation >>= fun _ => materialize exec k operation >>= f)
      (materialize exec' h operation >>= fun _ => materialize exec' k operation >>= f) s s' := by
  refine follows_materialize_bind hmakes fun t t' hfirst hfirst' _ => follows_of_between fun ht => ?_
  refine (hmakes.materialize k operation t t').bind fun _ u u' hrun hrun' => follows_of_between fun hu => ?_
  exact hf u u' hu (hmakes.stays ht hfirst hfirst' hrun hrun')
    (settled_of_made hu (made_of_materialize hrun) (made_of_materialize hrun'))

theorem follows_assign (hmakes : M.Makes exec exec') (target source : Handle) :
    M.Follows (assign exec target source) (assign exec' target source) s s' := by
  refine follows_of_between fun hs => follows_get (follows_unless ?_ fun _ => ?_)
  · rw [hs.twin.isConst_eq]
  · refine follows_materialize_pair hmakes fun t t' ht htarget hsource => follows_get ?_
    rw [ht.classes.isSubclassOf_eq]
    refine follows_unless Iff.rfl fun _ => ?_
    split
    · exact follows_pure _
    · have hsame := pair?_eq ht.arena htarget hsource
      refine follows_bind_orFail_same hsame _ fun pair hpair => ?_
      refine follows_bind_orFail_same rfl _ fun z _ => ?_
      obtain ⟨i, -, hi, -, hx, -⟩ := pair?_eq_some hpair
      obtain ⟨i', -, hi', -, hx', -⟩ := pair?_eq_some (hsame.trans hpair)
      exact follows_setArena (ht.arena.setNative (M.native_some _) target.target z) (spares_setNative hi hx z)
        (spares_setNative hi' hx' z)

theorem follows_equals (hmakes : M.Makes exec exec') (left right : Handle) :
    M.Follows (equals exec left right) (equals exec' left right) s s' := by
  refine follows_materialize_pair hmakes fun t t' ht hleft hright => ?_
  refine follows_bind_resolve fun i i' hi hi' hitwin => follows_bind_resolve fun j j' hj hj' hjtwin => ?_
  obtain rfl := eq_of_settled hleft hi hi' hitwin
  obtain rfl := eq_of_settled hright hj hj' hjtwin
  refine follows_get ?_
  rw [ht.cells_eq]
  exact follows_pure _

end Lifetime

/-! ## Arguments and results -/

namespace Delivery

theorem follows_settle (params : List Param) (sources : List Source) (updated : List Value) (args : CallArgs) :
    M.Follows (settle params sources updated args) (settle params sources updated args) s s' := by
  refine follows_of_between fun hs => follows_get ?_
  rw [hs.cells_eq]
  exact Follows.bind (fun _ _ => ⟨rfl, hs.setCells rfl, rfl⟩) fun _ _ _ _ _ => follows_pure _

theorem follows_newBox (content : Value) : M.Follows (newBox content) (newBox content) s s' := by
  refine follows_of_between fun hs => follows_get ?_
  rw [hs.cells_eq]
  exact Follows.bind (fun _ _ => ⟨rfl, hs.setCells rfl, rfl⟩) fun _ _ _ _ _ => follows_pure _

theorem follows_outward (params : List Param) (values : List Value) :
    M.Follows (outward params values) (outward params values) s s' := by
  induction params generalizing values s s' with
  | nil => exact follows_pure []
  | cons p params ih =>
      cases values with
      | nil => exact follows_pure []
      | cons v rest =>
          unfold outward
          split
          · exact (follows_newBox v).bind fun sent t t' _ _ => (ih rest).map
          · exact (ih rest).map

section Bodies

variable (hmakes : M.Makes exec exec')

include hmakes

theorem follows_prepareObject (passing : Passing) (h : Handle) :
    M.Follows (prepareObject exec passing h) (prepareObject exec' passing h) s s' := by
  cases passing with
  | value => exact (Lifetime.follows_dup hmakes h).map
  | ref | ptr | constRef | constPtr => exact follows_pure _

theorem follows_prepare (params : List Param) (values : List Value) :
    M.Follows (prepare exec params values) (prepare exec' params values) s s' := by
  induction params generalizing values s s' with
  | nil => exact follows_pure []
  | cons p params ih =>
      cases values with
      | nil => exact follows_pure []
      | cons v rest =>
          rw [prepare_cons, prepare_cons]
          have hone (t t' : State) : M.Follows (prepareOne exec p v) (prepareOne exec' p v) t t' := by
            unfold prepareOne
            split
            · exact follows_prepareObject hmakes p.passing _
            · exact follows_pure _
          exact (hone _ _).holding.bind fun _ _ _ _ _ => (ih rest).holding.map

omit hmakes in
theorem isFresh_eq (hs : M.Between s s') {i i' : Instance} (hi : i.Twin (M.native s.classes) i') (h : Handle) :
    isFresh s' i' h = isFresh s i h := by
  simp only [isFresh, hi.keep_eq, hs.sameProxies.anchorHeld_eq, hs.twin.isConst_eq]

omit hmakes in
theorem isSoleAlias_eq (hs : M.Between s s') (h : Handle) : isSoleAlias s' h = isSoleAlias s h := by
  have hkind (t : ClassTable) : (t.get? h.cls).any (fun c => decide (c.kind = .object)) =
      ((t.get? h.cls).map ClassInfo.outline).any fun c => decide (c.kind = .object) := by
    cases t.get? h.cls <;> rfl
  rw [isSoleAlias, isSoleAlias, hs.sameProxies.proxyHeld_eq, hkind, hs.classes.get?_eq, ← hkind]

theorem follows_giveObject (cls : String) (passing : Passing) (h : Handle) (method : String) :
    M.Follows (giveObject exec cls passing h method) (giveObject exec' cls passing h method) s s' := by
  refine follows_of_between fun hs => follows_get ?_
  refine follows_bind_same (hs.classes.require_eq cls) fun expected _ => follows_get ?_
  rw [hs.classes.isSubclassOf_eq]
  refine follows_unless Iff.rfl fun _ => ?_
  refine Lifetime.follows_bind_resolve fun i i' _ _ hi => follows_get ?_
  have hissued (c : Constness) : M.Follows (do return Value.object (← Lifetime.issueFor h c))
      (do return Value.object (← Lifetime.issueFor h c)) s s' :=
    (Lifetime.follows_issueFor h c).map
  have hshown : M.Follows
      (if isSoleAlias s h then do
        setArena (s.arena.setConst h.proxy true)
        return Value.object h
      else return Value.object (← Lifetime.issueFor h .const))
      (if isSoleAlias s' h then do
        setArena (s'.arena.setConst h.proxy true)
        return Value.object h
      else return Value.object (← Lifetime.issueFor h .const)) s s' := by
    rw [isSoleAlias_eq hs]
    split
    · have hspares (a : Arena) : a.Spares (a.setConst h.proxy true) := Arena.spares_setConst _ _ _
      exact (follows_setArena (hs.arena.setConst h.proxy true) (hspares _) (hspares _)).map
    · exact hissued .const
  cases passing with
  | value =>
      dsimp only
      rw [isFresh_eq hs hi]
      split
      · exact follows_pure _
      · exact (Lifetime.follows_dup hmakes h).holding.map
  | ref => exact hissued .nonConst
  | ptr => exact hissued .nonConst
  | constRef => exact hshown
  | constPtr => exact hshown

omit hmakes in
theorem follows_converted (type : Ty) (v : Value) :
    M.Follows (give.converted type v) (give.converted type v) s s' := by
  refine follows_of_between fun hs => follows_get ?_
  rw [hs.twin.convert_eq]
  split
  · exact follows_pure _
  · exact follows_fail _

theorem follows_give (owner method : String) (type : Ty) (passing : Passing) (v : Value) :
    M.Follows (give exec owner method type passing v) (give exec' owner method type passing v) s s' := by
  induction type generalizing v s s' with
  | any => exact follows_pure v
  | object cls =>
      unfold give
      split
      · exact follows_giveObject hmakes cls passing _ method
      · split
        · exact follows_pure _
        · exact follows_fail _
      · exact follows_converted (.object cls) _
  | list item ih =>
      unfold give
      split
      · exact (follows_mapHeld (fun u _ _ => ih u) _).map
      · exact follows_converted (.list item) _
  | _ => exact follows_converted _ v

theorem follows_giveBack (result : Result) (owner method : String) (v : Value) :
    M.Follows (giveBack exec result owner method v) (giveBack exec' result owner method v) s s' := by
  cases result with
  | none => exact follows_pure _
  | some declared => exact follows_give hmakes owner method declared.1 declared.2 v

end Bodies

end Delivery

/-! ## Streams -/

namespace Stream

theorem follows_opened {α : Type} {source : ItemSource} {act act' : Run α} (hact : ∀ t t', M.Follows act act' t t') :
    M.Follows (opened source act) (opened source act') s s' := by
  cases source with
  | items failAt => exact hact s s'
  | counting =>
      exact Follows.within (hact _ _) (fun _ _ _ => rfl) (fun _ _ _ => rfl) (fun _ hfree => ⟨hfree, hfree⟩) id
        fun _ h => h

variable (hmakes : M.Makes exec exec')

include hmakes

/-- A block runs for one item after the other. -/
theorem follows_drive (result : Result) (owner method : String) {block block' : Value → Run (Option Value)}
    (hblock : ∀ item t t', M.Follows (inHostFrame .host (block item)) (inHostFrame .host (block' item)) t t')
    (stream : Stream) :
    M.Follows (drive exec result owner method block stream) (drive exec' result owner method block' stream) s s' := by
  induction hsize : stream.size using Nat.strong_induction_on generalizing stream s s' with
  | _ n ih =>
      rcases hnext : stream.next? with _ | ⟨item, rest⟩
      · rw [drive_of_none hnext, drive_of_none hnext]
        exact follows_pure none
      · rw [drive_of_some hnext, drive_of_some hnext]
        have hitem (t t' : State) : M.Follows
            (do
              let item ← Delivery.giveBack exec result owner method (← ofExcept item)
              inHostFrame .host (block item))
            (do
              let item ← Delivery.giveBack exec' result owner method (← ofExcept item)
              inHostFrame .host (block' item)) t t' :=
          follows_bind_same rfl fun v _ =>
            (Delivery.follows_giveBack hmakes result owner method v).bind fun u _ _ _ _ => hblock u _ _
        refine (hitem _ _).holding.bind fun stopped t t' _ _ => ?_
        cases stopped with
        | some v => exact follows_pure _
        | none => exact ih rest.size (hsize ▸ size_lt_of_next? hnext) rest rfl

theorem follows_collect (result : Result) (owner method : String) (stream : Stream) :
    M.Follows (collect exec result owner method stream) (collect exec' result owner method stream) s s' := by
  induction hsize : stream.size using Nat.strong_induction_on generalizing stream s s' with
  | _ n ih =>
      rcases hnext : stream.next? with _ | ⟨item, rest⟩
      · rw [collect_of_none hnext, collect_of_none hnext]
        exact follows_pure []
      · rw [collect_of_some hnext, collect_of_some hnext]
        have hitem (t t' : State) : M.Follows
            (do Delivery.giveBack exec result owner method (← ofExcept item))
            (do Delivery.giveBack exec' result owner method (← ofExcept item)) t t' :=
          follows_bind_same rfl fun v _ => Delivery.follows_giveBack hmakes result owner method v
        refine (hitem _ _).holding.bind fun u t t' _ _ => ?_
        exact (ih rest.size (hsize ▸ size_lt_of_next? hnext) rest rfl).holding.map

theorem follows_withStream {α : Type} (recv : Handle) (overload : Overload) (method : String) (values : List Value)
    {act act' : Stream → Run α} (hact : ∀ stream t t', M.Follows (act stream) (act' stream) t t') :
    M.Follows (withStream exec recv overload method values act) (withStream exec' recv overload method values act')
      s s' := by
  unfold withStream
  split
  · refine (Delivery.follows_prepare hmakes _ values).bind fun us t t' _ _ => ?_
    refine (Lifetime.follows_runNative hmakes.bodies _ us _).bind fun body u u' _ _ => ?_
    exact follows_bind_same rfl fun stream _ => follows_opened (hact stream)
  · exact (Delivery.follows_prepare hmakes _ values).bind fun us t t' _ _ => follows_fail _

end Stream

/-! ## Construction -/

namespace Construction

variable (hmakes : M.Makes exec exec')

include hmakes

theorem follows_runConstructor (owner : String) (overload : Overload) (values : List Value) :
    M.Follows (runConstructor exec owner overload values) (runConstructor exec' owner overload values) s s' := by
  refine (Delivery.follows_prepare hmakes _ values).bind fun us t t' _ _ => ?_
  split
  · refine (Lifetime.follows_runNative hmakes.bodies none us _).bind fun body u u' _ _ => ?_
    exact follows_bind_same rfl fun state _ => follows_pure _
  · exact follows_fail _

/-- A constructor is the same in both states. -/
theorem follows_constructWith {c c' : ClassInfo} (houtline : c'.outline = c.outline)
    (hconstructors : s'.classes.findConstructors c.id = s.classes.findConstructors c.id) (args : CallArgs) :
    M.Follows (constructWith exec c args) (constructWith exec' c' args) s s' := by
  have hid : c'.id = c.id := (congrArg (fun o : ClassInfo => o.id) houtline :)
  have hname : c'.name = c.name := (congrArg (fun o : ClassInfo => o.name) houtline :)
  refine follows_of_between fun hs => follows_get ?_
  rw [hid, hname, hs.classes.overrides_eq, hconstructors]
  refine follows_bind_orFail_same rfl _ fun candidates _ => ?_
  refine follows_bind_same (hs.twin.pick_eq _ _ _ _) fun picked _ => ?_
  refine (follows_runConstructor hmakes _ _ _).holding.bind fun made t t' _ _ => ?_
  refine (Delivery.follows_settle _ _ _ _).bind fun args' u u' _ _ => ?_
  refine Lifetime.follows_countConstruction.holding.bind fun _ w w' _ _ => ?_
  exact (Lifetime.follows_registerAs houtline (M.native_some _ _ _) _ _).map

/-- A class has the same constructors in both states. -/
theorem follows_construct {cls : ClassId}
    (hlazy : (s'.classes.findLazy cls).isSome = (s.classes.findLazy cls).isSome)
    (hconstructors : ∀ c, s.classes.descriptor cls = .ok c →
      s'.classes.findConstructors c.id = s.classes.findConstructors c.id)
    (hnone : ∀ c, s.classes.descriptor cls = .ok c → M.native s.classes c.id none none) (args : CallArgs) :
    M.Follows (construct exec cls args) (construct exec' cls args) s s' := by
  refine follows_of_between fun hs => follows_get ?_
  refine follows_bind_ofExcept (Lifetime.descriptor_matched hs.classes cls) fun c c' hc _ houtline => ?_
  rw [hlazy, hs.classes.overrides_eq]
  split
  · refine Lifetime.follows_countConstruction.holding.bind fun _ t t' hcount _ => ?_
    refine (Lifetime.follows_registerAs houtline ?_ _ _).map
    rw [Lifetime.classes_of_holding_countConstruction hcount]
    exact hnone c hc
  · exact follows_constructWith hmakes houtline (hconstructors c hc) args

end Construction

/-! ## Calls -/

namespace Dispatch

theorem mayAccess_eq (hs : M.Between s s') (recv : Handle) : mayAccess s' recv = mayAccess s recv :=
  hs.congr (fun s => mayAccess s recv) fun _ _ _ => rfl

theorem follows_chooseStatic (cls : ClassId) (method : String) (args : CallArgs) :
    M.Follows (chooseStatic cls method args) (chooseStatic cls method args) s s' := by
  refine follows_of_between fun hs => follows_get ?_
  have hframes : s'.frames = s.frames := hs.congr State.frames fun _ _ _ => rfl
  rw [hs.classes.nameOf_eq]
  refine follows_bind_orFail_same (hs.classes.findMethod_eq cls method) _ fun candidates _ => ?_
  refine follows_unless Iff.rfl fun _ => ?_
  refine follows_bind_same (hs.twin.pick_eq _ _ _ _) fun picked _ => ?_
  rw [hframes]
  exact follows_unless Iff.rfl fun _ => follows_pure _

theorem follows_overrideFor (recv : Option Handle) (sig : Signature) (method : String) (allowOverride : Bool) :
    M.Follows (overrideFor recv sig method allowOverride) (overrideFor recv sig method allowOverride) s s' := by
  cases recv with
  | none => exact follows_pure none
  | some h =>
      unfold overrideFor
      dsimp only
      split
      · refine Lifetime.follows_bind_resolve fun i i' _ _ hi => ?_
        rw [hi.overrides_eq]
        exact follows_pure _
      · exact follows_pure none

variable (hmakes : M.Makes exec exec')

include hmakes

theorem follows_choose (recv : Handle) (method : String) (args : CallArgs) :
    M.Follows (choose exec recv method args) (choose exec' recv method args) s s' := by
  refine (hmakes.materialize recv method s s').bind fun _ t t' _ _ => ?_
  refine follows_of_between fun ht => follows_get ?_
  refine follows_bind_orFail_same (ht.classes.findMethod_eq recv.cls method) _ fun candidates _ => ?_
  refine follows_unless Iff.rfl fun _ => ?_
  rw [ht.twin.isConst_eq]
  refine follows_unless Iff.rfl fun _ => ?_
  refine follows_bind_same (ht.twin.pick_eq _ _ _ _) fun picked _ => ?_
  rw [mayAccess_eq ht]
  exact follows_unless Iff.rfl fun _ => follows_pure _

theorem follows_runOverride (recv : Handle) (f : Callable) (params : List Param) (values : List Value) :
    M.Follows (runOverride exec recv f params values) (runOverride exec' recv f params values) s s' := by
  refine (Delivery.follows_outward params values).bind fun sent t t' _ _ => ?_
  refine (Follows.inHostFrame fun _ _ => follows_invoke hmakes.bodies f (some recv) sent).holding.bind
    fun body u u' _ _ => ?_
  refine follows_of_between fun hu => follows_get ?_
  rw [hu.cells_eq]
  exact follows_pure _

theorem follows_runBody (recv : Option Handle) (chosen : Selected) (method : String) (allowOverride : Bool) :
    M.Follows (runBody exec recv chosen method allowOverride) (runBody exec' recv chosen method allowOverride)
      s s' := by
  refine (Delivery.follows_prepare hmakes _ _).bind fun values t t' _ _ => ?_
  refine (follows_overrideFor _ _ _ _).bind fun override u u' _ _ => ?_
  split
  · exact follows_runOverride hmakes _ _ _ values
  · split
    · exact (Lifetime.follows_runNative hmakes.bodies recv values _).map
    · exact follows_fail _

theorem follows_execute (recv : Option Handle) (chosen : Selected) (method : String) (args : CallArgs)
    (allowOverride : Bool) :
    M.Follows (execute exec recv chosen method args allowOverride)
      (execute exec' recv chosen method args allowOverride) s s' := by
  refine (follows_runBody hmakes recv chosen method allowOverride).holding.bind fun left t t' _ _ => ?_
  refine (Delivery.follows_settle _ _ _ _).bind fun args' u u' _ _ => ?_
  exact (Delivery.follows_giveBack hmakes _ _ _ _).holding.map

theorem follows_call (recv : Handle) (method : String) (args : CallArgs) (allowOverride : Bool) :
    M.Follows (invoke exec recv method args allowOverride) (invoke exec' recv method args allowOverride) s s' := by
  refine (follows_choose hmakes recv method args).holding.bind fun chosen t t' _ _ => ?_
  split
  · refine Follows.bind (Follows.holding ?_) fun items u u' _ _ => follows_pure _
    exact Stream.follows_withStream hmakes recv _ method _ fun stream _ _ =>
      Stream.follows_collect hmakes _ _ _ stream
  · exact follows_execute hmakes (some recv) chosen method args allowOverride

theorem follows_callStatic (cls : ClassId) (method : String) (args : CallArgs) :
    M.Follows (callStatic exec cls method args) (callStatic exec' cls method args) s s' :=
  (follows_chooseStatic cls method args).bind fun chosen _ _ _ _ => follows_execute hmakes none chosen method args false

theorem follows_each (recv : Handle) (method : String) (args : CallArgs) {block block' : Value → Run (Option Value)}
    (hblock : ∀ item t t', M.Follows (inHostFrame .host (block item)) (inHostFrame .host (block' item)) t t') :
    M.Follows (each exec recv method args block) (each exec' recv method args block') s s' := by
  refine Follows.holding ((follows_choose hmakes recv method args).bind fun chosen t t' _ _ => ?_)
  refine Follows.bind ?_ fun stopped u u' _ _ => follows_pure _
  exact Stream.follows_withStream hmakes recv _ method _ fun stream _ _ =>
    Stream.follows_drive hmakes _ _ _ hblock stream

end Dispatch

/-! ## Events -/

namespace Event

theorem follows_declaration (h : Handle) (event : String) :
    M.Follows (declaration h event) (declaration h event) s s' :=
  follows_of_between fun hs => follows_get (follows_orFail _ (hs.classes.findEvent_eq h.cls event))

variable (hmakes : M.Makes exec exec')

include hmakes

theorem follows_modifyHandlers (h : Handle) (event operation : String) (f : Handlers → Handlers) :
    M.Follows (modifyHandlers exec h event operation f) (modifyHandlers exec' h event operation f) s s' := by
  refine (hmakes.materialize h operation s s').bind fun _ t t' _ _ => ?_
  refine (follows_declaration h event).bind fun _ u u' _ _ => ?_
  refine Lifetime.follows_bind_resolve fun i i' _ _ hi => follows_of_between fun hu => follows_get ?_
  rw [hi.handlers?_eq]
  have hspares (a : Arena) (hs : Handlers) : a.Spares (a.modify h.target fun i => i.setHandlers event hs) :=
    Arena.spares_modify fun _ _ => rfl
  exact (follows_setArena (hu.arena.setHandlers h.target event _) (hspares _ _) (hspares _ _)).map

theorem follows_runHandlers (h : Handle) (values : List Value) (handlers : Handlers) :
    M.Follows (runHandlers exec h values handlers) (runHandlers exec' h values handlers) s s' := by
  induction handlers generalizing s s' with
  | nil => exact follows_pure _
  | cons f rest ih =>
      exact (Follows.inHostFrame fun _ _ => Mirror.follows_invoke hmakes.bodies f (some h) values).holding.bind
        fun _ _ _ _ _ => ih

theorem follows_trigger (h : Handle) (event : String) (args : List Value) :
    M.Follows (trigger exec h event args) (trigger exec' h event args) s s' := by
  refine (hmakes.materialize h event _ _).holding.bind fun _ t t' _ _ => ?_
  refine (follows_declaration h event).bind fun info u u' _ _ => follows_unless Iff.rfl fun _ => ?_
  refine follows_of_between fun hu => follows_get ?_
  refine follows_bind_same (hu.twin.convertArgs_eq _ _ _ _) fun values _ => ?_
  refine Lifetime.follows_bind_resolve fun i i' _ _ hi => ?_
  rw [hi.handlers?_eq]
  exact (follows_runHandlers hmakes h values _).holding

end Event

end ObjectBridge
