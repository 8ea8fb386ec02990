import ObjectBridge.Call.Stream
import ObjectBridge.Proofs.Call.Delivery

/-!
# Streams and the handles that exist

A stream keeps the items that it has not given yet, and the items to come are in use while one of them is
delivered or a block runs for it.

* `conserves_drive` and `conserves_collect` — the items one after the other.
* `conserves_withStream` — an enumerable body and what is done with its stream.
-/

namespace ObjectBridge.Stream

open Run

variable {s : State} {hand : List Value}

/-- What is left of a stream was in it before. -/
theorem mem_values_of_next? {stream rest : Stream} {item : Except Error Value}
    (h : stream.next? = some (item, rest)) {v : Value} (hv : v ∈ rest.values) :
    v ∈ stream.values := by
  cases stream with
  | items left =>
      cases left with
      | nil => simp [next?] at h
      | cons first left =>
          simp only [next?, Option.some.injEq, Prod.mk.injEq] at h
          obtain ⟨-, rfl⟩ := h
          exact List.mem_cons_of_mem _ hv
  | counting n left =>
      cases left with
      | zero => simp [next?] at h
      | succ left =>
          simp only [next?, Option.some.injEq, Prod.mk.injEq] at h
          obtain ⟨-, rfl⟩ := h
          exact hv

/-- The item given is one of the stream, or a number. -/
theorem covers_of_next? {stream rest : Stream} {v : Value}
    (h : stream.next? = some (.ok v, rest)) : s.Covers stream.values v := by
  cases stream with
  | items left =>
      cases left with
      | nil => simp [next?] at h
      | cons first left =>
          obtain ⟨u, failure⟩ := first
          simp only [next?, Option.some.injEq, Prod.mk.injEq] at h
          obtain ⟨hitem, -⟩ := h
          cases failure with
          | some e => cases hitem
          | none =>
              obtain rfl := Except.ok.inj hitem
              exact State.covers_of_mem_hand (by simp [values])
  | counting n left =>
      cases left with
      | zero => simp [next?] at h
      | succ left =>
          simp only [next?, Option.some.injEq, Prod.mk.injEq, Except.ok.injEq] at h
          rw [← h.1]
          exact Cells.covers_of_isPlain (Value.isPlain_int _)

/-- Errors are given for items, and not added to them. -/
theorem values_withFailures (failures : List (Nat × Error)) (items : List Value) :
    (Stream.items (withFailures failures items)).values = items := by
  rw [values, withFailures, List.map_map]
  exact List.zipIdx_map_fst 0 items

/-- The items of a stream are those of the value it stands for. -/
theorem covers_of_ofValue {source : ItemSource} {v : Value} {stream : Stream}
    (h : ofValue source v = .ok stream) (hv : s.Covers hand v) :
    ∀ u ∈ stream.values, s.Covers hand u := by
  cases source with
  | items failures =>
      obtain ⟨items, hitems, rfl⟩ := map_eq_ok_iff.mp h
      rw [Value.eq_list_of_asList hitems] at hv
      rw [values_withFailures]
      exact Cells.covers_list_iff.mp hv
  | counting =>
      obtain ⟨n, -, rfl⟩ := map_eq_ok_iff.mp h
      exact fun u hu => absurd hu List.not_mem_nil

/-- That a stream is open plays no role for the handles. -/
theorem conserves_opened {α : Type} {source : ItemSource} {act : Run α} {out : α → List Value}
    (hact : ∀ t, Conserves act t hand out) : Conserves (opened source act) s hand out := by
  cases source with
  | items failures => exact hact s
  | counting =>
      exact (hact { s with openStreams := s.openStreams + 1 }).within_frames
        (fun _ => ⟨rfl, rfl, rfl, rfl, rfl, id, Set.Subset.rfl⟩) fun _ => ⟨rfl, rfl, rfl, rfl, rfl, id, Set.Subset.rfl⟩

variable {exec : Exec} {result : Result} {owner method : String} {stream rest : Stream}
  {item : Except Error Value} {block : Value → Run (Option Value)}

theorem drive_of_none (h : stream.next? = none) :
    drive exec result owner method block stream = pure none := by
  rw [drive]
  split
  · rfl
  · rename_i hsome
    rw [h] at hsome
    cases hsome

theorem drive_of_some (h : stream.next? = some (item, rest)) :
    drive exec result owner method block stream = (do
      let stopped ← Run.holding rest.values do
        let item ← Delivery.giveBack exec result owner method (← Run.ofExcept item)
        Run.inHostFrame .host (block item)
      match stopped with
      | some v => return some v
      | none => drive exec result owner method block rest) := by
  rw [drive]
  split
  · rename_i hnone
    rw [h] at hnone
    cases hnone
  · rename_i hsome
    rw [h] at hsome
    obtain ⟨rfl, rfl⟩ := Prod.mk.inj (Option.some.inj hsome)
    rfl

theorem collect_of_none (h : stream.next? = none) :
    collect exec result owner method stream = pure [] := by
  rw [collect]
  split
  · rfl
  · rename_i hsome
    rw [h] at hsome
    cases hsome

theorem collect_of_some (h : stream.next? = some (item, rest)) :
    collect exec result owner method stream = (do
      let item ← Run.holding rest.values do
        Delivery.giveBack exec result owner method (← Run.ofExcept item)
      return item :: (← Run.holding [item] (collect exec result owner method rest))) := by
  rw [collect]
  split
  · rename_i hnone
    rw [h] at hnone
    cases hnone
  · rename_i hsome
    rw [h] at hsome
    obtain ⟨rfl, rfl⟩ := Prod.mk.inj (Option.some.inj hsome)
    rfl

/-- The rest of a stream is in use while something is done with the next item. -/
theorem conserves_next {α : Type} {act : Run α} {out : α → List Value}
    (h : stream.next? = some (item, rest))
    (hact : ∀ t, Conserves act t stream.values out) :
    Conserves (Run.holding rest.values act) s stream.values fun x => rest.values ++ out x := by
  refine (Conserves.holding (hact _)).of_hand ?_
  intro v hv
  rcases List.mem_append.mp hv with hv | hv
  · exact State.covers_of_mem_hand (mem_values_of_next? h hv)
  · exact State.covers_of_mem_hand hv

section Bodies

variable (hexec : ConservesAll exec)

include hexec

/-- The next item is delivered. -/
theorem conserves_giveItem {v : Value} (h : stream.next? = some (.ok v, rest)) :
    Conserves (Delivery.giveBack exec result owner method v) s stream.values fun u => [u] := by
  refine (Delivery.conserves_giveBack hexec result owner method v).of_hand ?_
  intro u hu
  obtain rfl := List.mem_singleton.mp hu
  exact covers_of_next? h

/-- A block takes one item after the other, and may stop with a value. -/
theorem conserves_drive
    (hblock : ∀ v s, Conserves (block v) s [v] fun stopped => stopped.toList) (stream : Stream) :
    Conserves (drive exec result owner method block stream) s stream.values
      fun stopped => stopped.toList := by
  induction stream using drive.induct generalizing s with
  | case1 stream hnext =>
      rw [drive_of_none hnext]
      exact conserves_pure (by simp)
  | case2 stream item rest hnext ih =>
      rw [drive_of_some hnext]
      have hitem (t : State) : Conserves
          (do
            let item ← Delivery.giveBack exec result owner method (← Run.ofExcept item)
            Run.inHostFrame .host (block item)) t stream.values fun stopped => stopped.toList := by
        refine conserves_bind_ofExcept ?_
        rintro v rfl
        refine (conserves_giveItem hexec hnext).bind ?_
        intro u t' _ _
        exact Conserves.inHostFrame (hblock u _)
      refine (conserves_next hnext hitem).bind ?_
      intro stopped t _ _
      cases stopped with
      | none => exact ih.of_hand fun v hv => State.covers_of_mem_hand (by simpa using hv)
      | some v =>
          exact conserves_pure fun u hu => State.covers_of_mem_hand (List.mem_append_right _ hu)

/-- The items so far are in use while the rest of the stream is collected. -/
theorem conserves_collect (stream : Stream) :
    Conserves (collect exec result owner method stream) s stream.values fun us => us := by
  induction stream using collect.induct generalizing s with
  | case1 stream hnext =>
      rw [collect_of_none hnext]
      exact conserves_pure (by simp)
  | case2 stream item rest hnext ih =>
      rw [collect_of_some hnext]
      have hitem (t : State) : Conserves
          (do Delivery.giveBack exec result owner method (← Run.ofExcept item)) t stream.values
          fun u => [u] := by
        refine conserves_bind_ofExcept ?_
        rintro v rfl
        exact conserves_giveItem hexec hnext
      refine (conserves_next hnext hitem).bind ?_
      intro u t _ _
      refine conserves_map (Conserves.of_hand ih.holding ?_)
      intro v hv
      refine State.covers_of_mem_hand ?_
      simpa [or_comm] using hv

/-- An object in use yields a stream, and the operation on it starts with its items in hand. -/
theorem conserves_withStream {α : Type} {recv : Handle} {overload : Overload}
    {values : List Value} {act : Stream → Run α} {out : α → List Value}
    (hrecv : .object recv ∈ s.kept)
    (hact : ∀ stream t, Conserves (act stream) t stream.values out) :
    Conserves (withStream exec recv overload method values act) s values out := by
  unfold withStream
  split
  · refine (Delivery.conserves_prepare hexec overload.sig.params values).bind ?_
    intro us t _ hlevel
    rw [← hlevel.kept_eq] at hrecv
    refine (Lifetime.conserves_runNative_of_kept hexec ?_).bind ?_
    · rintro h ⟨⟩
      exact hrecv
    · intro body u _ _
      refine conserves_bind_ofExcept ?_
      intro stream hstream
      refine (conserves_opened (hact stream)).of_hand ?_
      exact covers_of_ofValue hstream (State.covers_result body)
  · exact (Delivery.conserves_prepare hexec overload.sig.params values).bind
      fun _ _ _ _ => conserves_fail

end Bodies

end ObjectBridge.Stream
