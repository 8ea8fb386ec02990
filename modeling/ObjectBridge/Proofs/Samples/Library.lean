import ObjectBridge.Proofs.Run.Frames
import ObjectBridge.Samples.Library

/-!
# The sample library and the handles that exist

The defaults and constants of the sample classes are numbers and texts, so their registration brings no
handle up.
-/

namespace ObjectBridge.Samples

open Run

variable {s : State}

theorem isPlain_of_mem_library {d : ClassDraft} (hd : d ∈ library) {v : Value}
    (hv : v ∈ d.heldValues) : v.IsPlain := by
  have hall : (library.flatMap ClassDraft.heldValues).all
      (fun v => v.handles.isEmpty && v.boxes.isEmpty) = true := rfl
  have hplain := List.all_eq_true.mp hall v (List.mem_flatMap.mpr ⟨d, hd, hv⟩)
  simpa [Value.IsPlain] using hplain

theorem conserves_registerAll {drafts : List ClassDraft}
    (hplain : ∀ d ∈ drafts, ∀ v ∈ d.heldValues, v.IsPlain) :
    Conserves (registerAll drafts) s [] fun _ => [] := by
  induction drafts generalizing s with
  | nil => exact conserves_pure (by simp)
  | cons d rest ih =>
      refine conserves_get (conserves_bind_ofExcept ?_)
      rintro ⟨id, classes⟩ hdefine
      refine (conserves_setClasses (ClassTable.allOverrides_subset_of_define hdefine) ?_).bind
        fun _ t _ _ => ih fun d hd => hplain d (by simp [hd])
      intro v hv
      rcases ClassTable.mem_heldValues_of_define hdefine hv with hv | hv
      · exact Cells.covers_of_isPlain (hplain d (by simp) v hv)
      · exact covers_of_mem_classes hv

theorem conserves_registerSamples : Conserves register s [] fun _ => [] := by
  unfold register
  refine (conserves_registerAll fun d hd v hv => isPlain_of_mem_library hd hv).bind ?_
  intro _ t _ _
  exact conserves_modify ⟨rfl, rfl, rfl, id, Set.Subset.rfl⟩ rfl
    (Cells.within_of_covers fun v hv => Cells.covers_of_mem hv)

end ObjectBridge.Samples
