import ObjectBridge.Proofs.Value.LiveCells

/-!
# What values reach and lead to

Values in use reach the handles that occur in them, and through their boxes the handles in the cells in
use.  Copies of a handle differ by their const view at most, so what counts is the proxy.

A value leads to its parts and, through its boxes, to their contents.  When values are no longer in use, the
handles that go with them are the ones that they lead to.

* `Cells.Reaches` — the proxies that values reach.
* `Cells.Covers` — a value that adds nothing to what some values reach already.
* `Cells.Within` — values and cells that follow others and reach nothing more.
* `Cells.Leads` — the values that some values lead to.
* `Cells.mem_handles_or_leads` — a handle in use is in use without some of the values, or these lead to it.
-/

namespace ObjectBridge.Cells

/-- The handles that occur in the values or in the cells in use. -/
def handlesInUse (cells : Cells) (values : List Value) : List Handle :=
  Value.listHandles ((cells.live values).map cells.content ++ values)

/-- A handle with the proxy is in use. -/
def Reaches (cells : Cells) (values : List Value) (p : Proxy) : Prop :=
  ∃ h ∈ cells.handlesInUse values, h.proxy = p

/-- The handles and boxes of a value are among those that values reach. -/
structure Covers (cells : Cells) (values : List Value) (v : Value) : Prop where
  handles : ∀ h ∈ v.handles, cells.Reaches values h.proxy
  boxes : ∀ b ∈ v.boxes, b < cells.size → b ∈ cells.live values

/-- Later cells and values reach nothing that the earlier ones did not reach: a cell has its old content,
or its content is covered, and so are the values. -/
structure Within (cells : Cells) (values : List Value) (cells' : Cells) (values' : List Value) :
    Prop where
  size_le : cells.size ≤ cells'.size
  content_covered : ∀ b < cells'.size,
    (b < cells.size ∧ cells'.content b = cells.content b) ∨ cells.Covers values (cells'.content b)
  covers_of_mem : ∀ v ∈ values', cells.Covers values v

variable {cells cells' : Cells} {values values' : List Value}

/-! ## What is covered -/

theorem mem_handlesInUse_iff {h : Handle} :
    h ∈ cells.handlesInUse values ↔
      (∃ v ∈ values, h ∈ v.handles) ∨ ∃ b ∈ cells.live values, h ∈ (cells.content b).handles := by
  simp only [handlesInUse, Value.mem_listHandles, List.mem_append, List.mem_map]
  constructor
  · rintro ⟨v, ⟨b, hb, rfl⟩ | hv, hh⟩
    · exact Or.inr ⟨b, hb, hh⟩
    · exact Or.inl ⟨v, hv, hh⟩
  · rintro (⟨v, hv, hh⟩ | ⟨b, hb, hh⟩)
    · exact ⟨v, Or.inr hv, hh⟩
    · exact ⟨_, Or.inl ⟨b, hb, rfl⟩, hh⟩

theorem reaches_iff {p : Proxy} :
    cells.Reaches values p ↔
      (∃ v ∈ values, ∃ h ∈ v.handles, h.proxy = p) ∨
        ∃ b ∈ cells.live values, ∃ h ∈ (cells.content b).handles, h.proxy = p := by
  simp only [Reaches, mem_handlesInUse_iff]
  constructor
  · rintro ⟨h, ⟨v, hv, hh⟩ | ⟨b, hb, hh⟩, rfl⟩
    · exact Or.inl ⟨v, hv, h, hh, rfl⟩
    · exact Or.inr ⟨b, hb, h, hh, rfl⟩
  · rintro (⟨v, hv, h, hh, rfl⟩ | ⟨b, hb, h, hh, rfl⟩)
    · exact ⟨h, Or.inl ⟨v, hv, hh⟩, rfl⟩
    · exact ⟨h, Or.inr ⟨b, hb, hh⟩, rfl⟩

theorem covers_of_mem {v : Value} (hv : v ∈ values) : cells.Covers values v := by
  refine ⟨?_, ?_⟩
  · intro h hh
    exact reaches_iff.mpr (Or.inl ⟨v, hv, h, hh, rfl⟩)
  · intro b hb hlt
    exact mem_live_iff.mpr ⟨hlt, Or.inl (Value.mem_listBoxes.mpr ⟨v, hv, hb⟩)⟩

/-- The content of a cell in use is covered. -/
theorem covers_content_of_mem_live {b : BoxId} (hb : b ∈ cells.live values) :
    cells.Covers values (cells.content b) := by
  refine ⟨?_, ?_⟩
  · intro h hh
    exact reaches_iff.mpr (Or.inr ⟨b, hb, h, hh, rfl⟩)
  · intro c hc hlt
    exact mem_live_iff.mpr ⟨hlt, Or.inr ⟨b, hb, hc⟩⟩

theorem covers_of_isPlain {v : Value} (hv : v.IsPlain) : cells.Covers values v := by
  refine ⟨?_, ?_⟩
  · intro h hh
    rw [hv.1] at hh
    exact absurd hh List.not_mem_nil
  · intro b hb
    rw [hv.2] at hb
    exact absurd hb List.not_mem_nil

/-- With a box its content is covered. -/
theorem Covers.content {b : BoxId} (hb : cells.Covers values (.box b)) :
    cells.Covers values (cells.content b) := by
  by_cases hlt : b < cells.size
  · exact covers_content_of_mem_live (hb.boxes b (by simp) hlt)
  · have hnil : cells.content b = .nil := by
      simp [Cells.content, Array.getD_eq_getD_getElem?, hlt]
    rw [hnil]
    exact covers_of_isPlain ⟨rfl, rfl⟩

theorem covers_list_iff {items : List Value} :
    cells.Covers values (.list items) ↔ ∀ v ∈ items, cells.Covers values v := by
  constructor
  · intro hitems v hv
    refine ⟨?_, ?_⟩
    · intro h hh
      exact hitems.handles h (by rw [Value.handles_list, Value.mem_listHandles]; exact ⟨v, hv, hh⟩)
    · intro b hb
      exact hitems.boxes b (by rw [Value.boxes_list, Value.mem_listBoxes]; exact ⟨v, hv, hb⟩)
  · intro hitems
    refine ⟨?_, ?_⟩
    · intro h hh
      rw [Value.handles_list, Value.mem_listHandles] at hh
      obtain ⟨v, hv, hh⟩ := hh
      exact (hitems v hv).handles h hh
    · intro b hb
      rw [Value.boxes_list, Value.mem_listBoxes] at hb
      obtain ⟨v, hv, hb⟩ := hb
      exact (hitems v hv).boxes b hb

theorem covers_map_iff {entries : List (Value × Value)} :
    cells.Covers values (.map entries) ↔
      ∀ e ∈ entries, cells.Covers values e.1 ∧ cells.Covers values e.2 := by
  constructor
  · intro hentries e he
    refine ⟨⟨?_, ?_⟩, ⟨?_, ?_⟩⟩
    · intro h hh
      exact hentries.handles h (Value.mem_handles_map.mpr ⟨e, he, Or.inl hh⟩)
    · intro b hb
      exact hentries.boxes b (Value.mem_boxes_map.mpr ⟨e, he, Or.inl hb⟩)
    · intro h hh
      exact hentries.handles h (Value.mem_handles_map.mpr ⟨e, he, Or.inr hh⟩)
    · intro b hb
      exact hentries.boxes b (Value.mem_boxes_map.mpr ⟨e, he, Or.inr hb⟩)
  · intro hentries
    refine ⟨?_, ?_⟩
    · intro h hh
      obtain ⟨e, he, hh | hh⟩ := Value.mem_handles_map.mp hh
      · exact (hentries e he).1.handles h hh
      · exact (hentries e he).2.handles h hh
    · intro b hb
      obtain ⟨e, he, hb | hb⟩ := Value.mem_boxes_map.mp hb
      · exact (hentries e he).1.boxes b hb
      · exact (hentries e he).2.boxes b hb

theorem covers_object_iff {h : Handle} :
    cells.Covers values (.object h) ↔ cells.Reaches values h.proxy := by
  constructor
  · intro hcov
    exact hcov.handles h (by simp)
  · intro hreaches
    refine ⟨?_, by simp⟩
    intro k hk
    rw [Value.handles_object, List.mem_singleton] at hk
    rwa [hk]

/-- A const view is covered with the handle. -/
theorem Covers.asConst {h : Handle} (hh : cells.Covers values (.object h)) :
    cells.Covers values (.object h.asConst) := by
  rw [covers_object_iff] at hh ⊢
  exact hh

/-! ## What is not added -/

/-- Cells that are in use later were in use before. -/
theorem Within.mem_live (h : Within cells values cells' values') {b : BoxId}
    (hb : b ∈ cells'.live values') (hlt : b < cells.size) : b ∈ cells.live values := by
  -- The boxes in use before, with the old ones of those in use later, are closed under contents.
  have hset : cells.Supported values fun b =>
      b ∈ cells.live values ∨ (b < cells.size ∧ b ∈ cells'.live values') := by
    have hold {b : BoxId} (hb : b ∈ cells.live values) : b < cells.size ∧
        (b ∈ Value.listBoxes values ∨ ∃ c, (c ∈ cells.live values ∨
          (c < cells.size ∧ c ∈ cells'.live values')) ∧ b ∈ (cells.content c).boxes) := by
      obtain ⟨hlt, hmentioned | ⟨c, hc, hmentioned⟩⟩ := mem_live_iff.mp hb
      · exact ⟨hlt, Or.inl hmentioned⟩
      · exact ⟨hlt, Or.inr ⟨c, Or.inl hc, hmentioned⟩⟩
    rintro b (hb | ⟨hlt, hb⟩)
    · exact hold hb
    · obtain ⟨-, hmentioned | ⟨c, hc, hmentioned⟩⟩ := mem_live_iff.mp hb
      · obtain ⟨v, hv, hbv⟩ := Value.mem_listBoxes.mp hmentioned
        exact hold ((h.covers_of_mem v hv).boxes b hbv hlt)
      · rcases h.content_covered c (mem_live_iff.mp hc).1 with ⟨hclt, hsame⟩ | hcov
        · rw [hsame] at hmentioned
          exact ⟨hlt, Or.inr ⟨c, Or.inr ⟨hclt, hc⟩, hmentioned⟩⟩
        · exact hold (hcov.boxes b hmentioned hlt)
  exact hset.mem_live (Or.inr ⟨hlt, hb⟩)

/-- The contents of the cells in use later were covered before. -/
theorem Within.covers_content (h : Within cells values cells' values') {b : BoxId}
    (hb : b ∈ cells'.live values') : cells.Covers values (cells'.content b) := by
  rcases h.content_covered b (mem_live_iff.mp hb).1 with ⟨hlt, hsame⟩ | hcov
  · rw [hsame]
    exact covers_content_of_mem_live (h.mem_live hb hlt)
  · exact hcov

/-- What is reached later was reached before. -/
theorem Within.reaches (h : Within cells values cells' values') {p : Proxy}
    (hp : cells'.Reaches values' p) : cells.Reaches values p := by
  rcases reaches_iff.mp hp with ⟨v, hv, k, hk, rfl⟩ | ⟨b, hb, k, hk, rfl⟩
  · exact (h.covers_of_mem v hv).handles k hk
  · exact (h.covers_content hb).handles k hk

/-- What is covered later was covered before. -/
theorem Within.covers (h : Within cells values cells' values') {v : Value}
    (hv : cells'.Covers values' v) : cells.Covers values v := by
  refine ⟨?_, ?_⟩
  · intro k hk
    exact h.reaches (hv.handles k hk)
  · intro b hb hlt
    exact h.mem_live (hv.boxes b hb (Nat.lt_of_lt_of_le hlt h.size_le)) hlt

/-- Values that are covered reach nothing more. -/
theorem within_of_covers (hvalues : ∀ v ∈ values', cells.Covers values v) :
    Within cells values cells values' :=
  ⟨Nat.le_refl _, fun _ hb => Or.inl ⟨hb, rfl⟩, hvalues⟩

/-- More values cover more. -/
theorem Covers.mono (hsub : ∀ v ∈ values, v ∈ values') {v : Value} (hv : cells.Covers values v) :
    cells.Covers values' v :=
  (within_of_covers fun u hu => covers_of_mem (hsub u hu)).covers hv

/-- The values reached with an additional handle are those reached without it and its own proxy. -/
theorem reaches_object_cons {h : Handle} {p : Proxy}
    (hp : cells.Reaches (.object h :: values) p) : p = h.proxy ∨ cells.Reaches values p := by
  have hlive {b : BoxId} (hb : b ∈ cells.live (.object h :: values)) : b ∈ cells.live values := by
    have hset : cells.Supported values fun b => b ∈ cells.live (.object h :: values) := by
      intro b hb
      obtain ⟨hlt, hmentioned | hmentioned⟩ := mem_live_iff.mp hb
      · rw [Value.listBoxes_cons, Value.boxes_object, List.nil_append] at hmentioned
        exact ⟨hlt, Or.inl hmentioned⟩
      · exact ⟨hlt, Or.inr hmentioned⟩
    exact hset.mem_live hb
  rcases reaches_iff.mp hp with ⟨v, hv, k, hk, rfl⟩ | ⟨b, hb, k, hk, rfl⟩
  · rcases List.mem_cons.mp hv with rfl | hv
    · rw [Value.handles_object, List.mem_singleton] at hk
      exact Or.inl (congrArg Handle.proxy hk)
    · exact Or.inr (reaches_iff.mpr (Or.inl ⟨v, hv, k, hk, rfl⟩))
  · exact Or.inr (reaches_iff.mpr (Or.inr ⟨b, hlive hb, k, hk, rfl⟩))

end ObjectBridge.Cells

/-! ## What values lead to -/

namespace ObjectBridge.Cells

/-- The values that some values lead to. -/
inductive Leads (cells : Cells) (values : List Value) : Value → Prop
  | start {v : Value} (hv : v ∈ values) : Leads cells values v
  | item {items : List Value} {v : Value} (hitems : Leads cells values (.list items))
      (hv : v ∈ items) : Leads cells values v
  | key {entries : List (Value × Value)} {e : Value × Value}
      (hentries : Leads cells values (.map entries)) (he : e ∈ entries) : Leads cells values e.1
  | value {entries : List (Value × Value)} {e : Value × Value}
      (hentries : Leads cells values (.map entries)) (he : e ∈ entries) : Leads cells values e.2
  | content {b : BoxId} (hb : Leads cells values (.box b)) : Leads cells values (cells.content b)

variable {cells : Cells} {values values' removed : List Value} {h : Handle}

theorem closed_leads (cells : Cells) (values : List Value) : Value.Closed (cells.Leads values) :=
  ⟨fun _ hitems _ hv => .item hitems hv, fun _ hentries _ he => ⟨.key hentries he, .value hentries he⟩⟩

theorem Leads.mono (hsub : ∀ v ∈ values, v ∈ values') {v : Value} (hv : cells.Leads values v) :
    cells.Leads values' v := by
  induction hv with
  | start hv => exact .start (hsub _ hv)
  | item _ hv ih => exact .item ih hv
  | key _ he ih => exact .key ih he
  | value _ he ih => exact .value ih he
  | content _ ih => exact .content ih

/-- What values in use lead to is covered. -/
theorem Leads.covers {v : Value} (hv : cells.Leads removed v)
    (hsub : ∀ u ∈ removed, u ∈ values) : cells.Covers values v := by
  induction hv with
  | start hv => exact covers_of_mem (hsub _ hv)
  | item _ hv ih => exact covers_list_iff.mp ih _ hv
  | key _ he ih => exact (covers_map_iff.mp ih _ he).1
  | value _ he ih => exact (covers_map_iff.mp ih _ he).2
  | content _ ih => exact ih.content

/-- With more values more cells are in use. -/
theorem mem_live_mono (hsub : ∀ v ∈ values, v ∈ values') {b : BoxId} (hb : b ∈ cells.live values) :
    b ∈ cells.live values' := by
  have hset : cells.Supported values' fun b => b ∈ cells.live values := by
    intro b hb
    obtain ⟨hlt, hmentioned | hmentioned⟩ := mem_live_iff.mp hb
    · obtain ⟨v, hv, hbv⟩ := Value.mem_listBoxes.mp hmentioned
      exact ⟨hlt, Or.inl (Value.mem_listBoxes.mpr ⟨v, hsub v hv, hbv⟩)⟩
    · exact ⟨hlt, Or.inr hmentioned⟩
  exact hset.mem_live hb

theorem mem_handlesInUse_mono (hsub : ∀ v ∈ values, v ∈ values')
    (hh : h ∈ cells.handlesInUse values) : h ∈ cells.handlesInUse values' := by
  rw [mem_handlesInUse_iff] at hh ⊢
  rcases hh with ⟨v, hv, hh⟩ | ⟨b, hb, hh⟩
  · exact Or.inl ⟨v, hsub v hv, hh⟩
  · exact Or.inr ⟨b, mem_live_mono hsub hb, hh⟩

/-- The cells to which no removed value leads stay in use: they support each other and are supported by the
values that stay. -/
theorem supported_without (hsplit : ∀ v ∈ values, v ∈ values' ∨ v ∈ removed) :
    cells.Supported values' fun b => b ∈ cells.live values ∧ ¬cells.Leads removed (.box b) := by
  rintro b ⟨hb, hnot⟩
  obtain ⟨hlt, hmentioned | ⟨c, hc, hmentioned⟩⟩ := mem_live_iff.mp hb
  · obtain ⟨v, hv, hbv⟩ := Value.mem_listBoxes.mp hmentioned
    rcases hsplit v hv with hv | hv
    · exact ⟨hlt, Or.inl (Value.mem_listBoxes.mpr ⟨v, hv, hbv⟩)⟩
    · exact absurd ((closed_leads cells removed).box (.start hv) hbv) hnot
  · refine ⟨hlt, Or.inr ⟨c, ⟨hc, ?_⟩, hmentioned⟩⟩
    intro hleads
    exact hnot ((closed_leads cells removed).box (.content hleads) hmentioned)

/-- A handle that goes with removed values is one that they lead to. -/
theorem mem_handles_or_leads (hsplit : ∀ v ∈ values, v ∈ values' ∨ v ∈ removed)
    (hh : h ∈ cells.handlesInUse values) :
    h ∈ cells.handlesInUse values' ∨ cells.Leads removed (.object h) := by
  rw [mem_handlesInUse_iff] at hh ⊢
  rcases hh with ⟨v, hv, hh⟩ | ⟨b, hb, hh⟩
  · rcases hsplit v hv with hv | hv
    · exact Or.inl (Or.inl ⟨v, hv, hh⟩)
    · exact Or.inr ((closed_leads cells removed).object (.start hv) hh)
  · by_cases hleads : cells.Leads removed (.box b)
    · exact Or.inr ((closed_leads cells removed).object (.content hleads) hh)
    · exact Or.inl (Or.inr ⟨b, (supported_without hsplit).mem_live ⟨hb, hleads⟩, hh⟩)

/-- What values lead to, one of them leads to. -/
theorem Leads.exists_mem {v : Value} (hv : cells.Leads values v) :
    ∃ u ∈ values, cells.Leads [u] v := by
  induction hv with
  | start hv => exact ⟨_, hv, .start (by simp)⟩
  | item _ hv ih =>
      obtain ⟨u, hu, hleads⟩ := ih
      exact ⟨u, hu, .item hleads hv⟩
  | key _ he ih =>
      obtain ⟨u, hu, hleads⟩ := ih
      exact ⟨u, hu, .key hleads he⟩
  | value _ he ih =>
      obtain ⟨u, hu, hleads⟩ := ih
      exact ⟨u, hu, .value hleads he⟩
  | content _ ih =>
      obtain ⟨u, hu, hleads⟩ := ih
      exact ⟨u, hu, .content hleads⟩

end ObjectBridge.Cells
