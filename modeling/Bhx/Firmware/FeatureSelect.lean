import Bhx.Firmware.SlotCores

/-!
# The half of the feature bits that DEVICE_FEATURES shows

TRISC2 shows in DEVICE_FEATURES the half of the feature bits that DEVICE_FEATURES_SEL selects, and
writes the cell only when the selector differs from the value it saw last. BRISC's reset of a device
writes the cell too, with both halves OR-ed together, and clears the selector. When TRISC2 has last
seen the selector zero, nothing tells it of the reset, and the cell keeps the wrong word.

Once the guest has stopped writing and no reset is pending, a full visit of TRISC2 leaves the cell
right exactly when TRISC2 has a change of the selector to see or the cell was right already
(`deviceFeatures_shown_iff`). After a reset neither need hold (`deviceFeatures_after_reset`).
-/

set_option autoImplicit false

namespace Bhx.Firmware

open SharedMemory Machine L1Layout Cores

variable {s : SlotScene}

/-! ### The guest has stopped -/

/-- The firmware goes on without the guest. -/
def Undriven (slot : ℕ) {D : Type} (_ : SlotConfig D) : Turn SlotCore ByteStore → Prop
  | .core core => core ≠ .driver
  | .act event => Outsider slot event

instance (slot : ℕ) {D : Type} (c : SlotConfig D) :
    (turn : Turn SlotCore ByteStore) → Decidable (Undriven slot c turn)
  | .core _ => inferInstanceAs (Decidable (_ ≠ _))
  | .act _ => inferInstanceAs (Decidable (Outsider _ _))

/-- No reset is pending and BRISC is not in the STATUS phase; TRISC2 stores nothing more in its
visit, and ends it having seen `last`. -/
structure Unhurried (slot last : ℕ) {D : Type} (c : SlotConfig D) : Prop where
  live : Live slot c.scene.memory
  brisc : (c.rest .brisc).Always (Touches slot setupStores) fun _ ↦ True
  trisc1 : (c.rest .trisc1).Always (Touches slot watchSelStores) fun _ ↦ True
  trisc2 : (c.rest .trisc2).Always (Touches slot noStores) fun seen : ℕ ↦ seen = last

/-- The word in DEVICE_FEATURES. -/
def shownFeatures (slot : ℕ) (w : World) : ℕ := cell slot (.reg mmioDeviceFeatures) w

/-- The word in DEVICE_FEATURES_SEL. -/
def featuresSel (slot : ℕ) (w : World) : ℕ := cell slot (.reg mmioDeviceFeaturesSel) w

/-! ### The parts of the cores -/

/-- From `base` passes of TRISC2 on, with the selector `sel`, its first visit turns the word
`before` into `after`, and `last` into `sel`. -/
def featureOutline (slot : ℕ) (D : Type) (base last sel before after : ℕ) :
    Outline SlotCore Op ℕ ByteStore World (SlotCore.Private D) where
  inv s := Live slot s.memory ∧ featuresSel slot s.memory = sel ∧
    (base + 2 ≤ passes .trisc2 s.trace → shownFeatures slot s.memory = after)
  rely
    | .brisc, s, s' => statusSnap slot s'.memory = statusSnap slot s.memory ∧
        statusWord slot s'.memory = statusWord slot s.memory
    | .trisc2, s, s' => shownFeatures slot s'.memory = shownFeatures slot s.memory ∧
        passes .trisc2 s'.trace = passes .trisc2 s.trace
    | .trisc1, _, _ | .driver, _, _ => True
  guarantee
    | .brisc, op, t => Touches slot pollStores op ∧ StaysLive slot op t
    | .trisc1, op, _ => Touches slot watchSelStores op
    | .trisc2, op, _ => Touches slot noStores op ∨
        op = .l1Store (regAddr slot mmioDeviceFeatures) 4 after
    | .driver, _, _ => True
  between
    | .trisc2, seen, s =>
      (passes .trisc2 s.trace = base ∧ seen = last ∧ shownFeatures slot s.memory = before) ∨
        (base < passes .trisc2 s.trace ∧ seen = sel ∧ shownFeatures slot s.memory = after)
    | .brisc, _, _ | .trisc1, _, _ | .driver, _, _ => True

variable {slot : ℕ} {D : Type} {drive : D → Prog D}

section Parts

variable {base last sel before after : ℕ}

theorem resetless_features :
    Resetless slot fun s s' ↦
      (featureOutline slot D base last sel before after).rely .brisc s s' ∧
        (featureOutline slot D base last sel before after).inv s' :=
  fun _ _ hstep ↦ ⟨hstep.1.1, .inl hstep.1.2⟩

/-- TRISC2 knows how often it has begun a visit and what DEVICE_FEATURES shows. -/
theorem visit_stable (word : ℕ) (s s' : SlotScene)
    (hstep : (featureOutline slot D base last sel before after).rely .trisc2 s s' ∧
      (featureOutline slot D base last sel before after).inv s')
    (hs : base < passes .trisc2 s.trace ∧ shownFeatures slot s.memory = word) :
    base < passes .trisc2 s'.trace ∧ shownFeatures slot s'.memory = word :=
  ⟨hstep.1.2.symm ▸ hs.1, hstep.1.1.trans hs.2⟩

theorem countChange_at
    (hs : base < passes .trisc2 s.trace ∧ shownFeatures slot s.memory = after) :
    (featureOutline slot D base last sel before after).At (slotCores slot drive) .trisc2
      (do incStat statsOffDevFeatSelChanges; pure sel) s := by
  have hcount : (incStat statsOffDevFeatSelChanges).Performs (Touches slot noStores) :=
    touches_incStat
  refine ((Ensures.keeping _ hcount (visit_stable after) ?_ hs).imp
    (fun _ _ hop ↦ .inl hop.1) fun _ _ hpost ↦ hpost.2).bind fun _ t ht ↦ ?_
  · intro op t htouches ht
    exact ⟨ht.1, ((htouches.kept t.memory).eq _).trans ht.2⟩
  · exact .inr ⟨ht.1, rfl, ht.2⟩

/-- A visit of TRISC2 that begins with the word `word` and the value `seen`. -/
theorem watchFeatures_at {seen word : ℕ} (hsel : featuresSel slot s.memory = sel)
    (hs : base < passes .trisc2 s.trace ∧ shownFeatures slot s.memory = word)
    (hsame : sel = seen → word = after) (hdiffers : sel ≠ seen → featureWord slot sel = after)
    (hafter : after < 2 ^ 32) :
    (featureOutline slot D base last sel before after).At (slotCores slot drive) .trisc2
      (watchFeatures slot seen) s := by
  refine ensures_read (.reg mmioDeviceFeaturesSel) (fun t ↦ featuresSel slot t.memory = sel ∧
    base < passes .trisc2 t.trace ∧ shownFeatures slot t.memory = word) (fun t t' hstep ht ↦
    ⟨hstep.2.2.1, visit_stable word t t' hstep ht.2⟩) ⟨hsel, hs⟩ fun t ht ↦ ⟨.inl (.load _), ?_⟩
  rw [show cell slot (.reg mmioDeviceFeaturesSel) t.memory = sel from ht.1]
  by_cases hchanged : sel ≠ seen
  · rw [if_pos hchanged, hdiffers hchanged]
    refine ensures_store _ (visit_stable word) ht.2 fun t' ht' ↦ ⟨.inr rfl, countChange_at ?_⟩
    refine ⟨ht'.1, (cell_store_self slot (.reg mmioDeviceFeatures) after t'.memory).trans ?_⟩
    exact Nat.mod_eq_of_lt hafter
  · rw [if_neg hchanged]
    have hseen : sel = seen := not_not.mp hchanged
    exact .inr ⟨ht.2.1, hseen.symm, ht.2.2.trans (hsame hseen)⟩

theorem featureWord_lt {slot dfsel : ℕ} : featureWord slot dfsel < 2 ^ 32 := by
  have htemplate : (deviceForSlot slot).devFeatLow < 2 ^ 32 ∧
      (deviceForSlot slot).devFeatHigh < 2 ^ 32 := by
    unfold deviceForSlot
    split <;> decide
  unfold featureWord
  split_ifs
  · exact htemplate.1
  · exact htemplate.2
  · decide

/-- What leaves the selector and the shown word alone keeps the invariant and is relied on by
TRISC2, and by BRISC where STATUS is left alone too. -/
theorem features_kept {stores : Cell → ℕ → Bool} {s' : SlotScene}
    (hkept : CellsKept slot stores s.memory s'.memory) (hlive : Live slot s'.memory)
    (hinv : (featureOutline slot D base last sel before after).inv s)
    (hpasses : passes .trisc2 s'.trace = passes .trisc2 s.trace := by exact rfl)
    (hsel : Spared stores (.reg mmioDeviceFeaturesSel) := by exact fun _ ↦ rfl)
    (hword : Spared stores (.reg mmioDeviceFeatures) := by exact fun _ ↦ rfl) :
    (featureOutline slot D base last sel before after).inv s' ∧
      ∀ core, (core = .brisc → SparesStatus stores) →
        (featureOutline slot D base last sel before after).rely core s s' := by
  have hshown : shownFeatures slot s'.memory = shownFeatures slot s.memory :=
    hkept (.reg mmioDeviceFeatures) (by decide) hword
  refine ⟨⟨hlive, ?_, fun hge ↦ hshown.trans (hinv.2.2 (hpasses ▸ hge))⟩, fun core hstatus ↦ ?_⟩
  · exact (hkept (.reg mmioDeviceFeaturesSel) (by decide) hsel).trans hinv.2.1
  cases core with
  | brisc => exact ⟨hkept.snap_eq (hstatus rfl).snap, hkept.status_eq (hstatus rfl).word⟩
  | trisc2 => exact ⟨hshown, hpasses⟩
  | _ => trivial

theorem featureOutline_sound (hslot : slot < numSlots) (hlast : sel = last → before = after)
    (hdiffers : sel ≠ last → featureWord slot sel = after) (hafter : after < 2 ^ 32) :
    (featureOutline slot D base last sel before after).Sound (slotCores slot drive)
      (Undriven slot) := by
  apply Outline.Sound.ofRely
  case hrefl =>
    intro core s
    cases core with
    | brisc => exact ⟨rfl, rfl⟩
    | trisc2 => exact ⟨rfl, rfl⟩
    | _ => trivial
  case htrans =>
    intro core s s' s'' h h'
    cases core with
    | brisc => exact ⟨h'.1.trans h.1, h'.2.trans h.2⟩
    | trisc2 => exact ⟨h'.1.trans h.1, h'.2.trans h.2⟩
    | _ => trivial
  case hstable =>
    intro core seen s s' hstep h
    cases core with
    | trisc2 =>
      show _ ∨ _
      rw [hstep.1, hstep.2]
      exact h
    | _ => trivial
  case hpass =>
    intro core other s hother
    cases other with
    | brisc => exact ⟨rfl, rfl⟩
    | trisc2 => exact ⟨rfl, if_neg hother.symm⟩
    | _ => trivial
  case hloop =>
    intro core seen s hinv h
    cases core with
    | brisc =>
      refine ⟨hinv, ?_⟩
      exact (resetless_features.pollOneDevice hslot (fun _ ↦ True) (fun _ _ _ _ ↦ trivial) (fun _ _
        _ _ ↦ trivial) hinv.1 trivial).imp (fun _ _ hop ↦ ⟨hop.1, hop.2.1⟩) fun _ _ _ ↦ trivial
    | trisc1 => exact ⟨hinv, Ensures.ofAlways (touches_watchSel slot seen) _⟩
    | driver => exact ⟨hinv, (ensures_true _ _).imp (fun _ _ _ ↦ trivial) fun _ _ _ ↦ trivial⟩
    | trisc2 =>
      have hpasses : passes .trisc2 (pass .trisc2 s).trace =
          passes .trisc2 s.trace + 1 := if_pos rfl
      rcases h with ⟨hbase, rfl, hword⟩ | ⟨hbase, rfl, hword⟩
      · refine ⟨⟨hinv.1, hinv.2.1, fun hge ↦ ?_⟩, ?_⟩
        · omega
        · refine watchFeatures_at hinv.2.1 ⟨?_, hword⟩ hlast hdiffers hafter
          omega
      · refine ⟨⟨hinv.1, hinv.2.1, fun _ ↦ hword⟩, ?_⟩
        refine watchFeatures_at hinv.2.1 ⟨?_, hword⟩ (fun _ ↦ rfl) (fun hne ↦ absurd rfl hne) hafter
        omega
  case haccess =>
    intro c core op next hallowed hrest hguar h
    have hinv := h.inv
    cases core with
    | brisc =>
      obtain ⟨htouches, hlive⟩ := hguar
      obtain ⟨hinv', hrely⟩ := features_kept (htouches.access_kept .brisc c.scene) hlive hinv
      exact ⟨hinv', fun other hother ↦ .inl (hrely other fun hbrisc ↦ absurd hbrisc hother)⟩
    | trisc1 =>
      have hkept := hguar.access_kept .trisc1 c.scene
      obtain ⟨hinv', hrely⟩ := features_kept hkept (hkept.live hinv.1) hinv
      exact ⟨hinv', fun other _ ↦ .inl (hrely other fun _ ↦ ⟨fun _ ↦ rfl, fun _ ↦ rfl⟩)⟩
    | trisc2 =>
      rcases hguar with htouches | rfl
      · have hkept := htouches.access_kept .trisc2 c.scene
        obtain ⟨hinv', hrely⟩ := features_kept hkept (hkept.live hinv.1) hinv
        exact ⟨hinv', fun other _ ↦ .inl (hrely other fun _ ↦ ⟨fun _ ↦ rfl, fun _ ↦ rfl⟩)⟩
      · have htouches : Touches slot featureStores (.l1Store (regAddr slot mmioDeviceFeatures) 4
          after) := .store (.reg mmioDeviceFeatures) after (by decide) rfl
        have hkept := htouches.access_kept .trisc2 c.scene
        have hshown := cell_store_self slot (.reg mmioDeviceFeatures) after c.scene.memory
        rw [Nat.mod_eq_of_lt hafter] at hshown
        refine ⟨⟨hkept.live hinv.1, ?_, fun _ ↦ hshown⟩, fun other hother ↦ .inl ?_⟩
        · exact (hkept.eq (.reg mmioDeviceFeaturesSel)).trans hinv.2.1
        cases other with
        | brisc => exact ⟨hkept.snap_eq, hkept.status_eq⟩
        | trisc2 => exact absurd rfl hother
        | _ => trivial
    | driver => exact absurd rfl hallowed
  case hact =>
    intro c event hallowed h
    have hkept := Outsider.kept drive hallowed c.scene
    obtain ⟨hinv, hrely⟩ := features_kept hkept (hkept.live h.inv.1) h.inv
    exact ⟨hinv, fun other ↦ .inl (hrely other fun _ ↦ ⟨fun _ ↦ rfl, fun _ ↦ rfl⟩)⟩

end Parts

/-! ### A full visit -/

theorem Unhurried.holds (drive : D → Prog D) {last after : ℕ} {c : SlotConfig D}
    (h : Unhurried slot last c) :
    (featureOutline slot D (passes .trisc2 c.scene.trace) last
      (featuresSel slot c.scene.memory) (shownFeatures slot c.scene.memory) after).Holds
      (slotCores slot drive) c := by
  refine ⟨⟨h.live, rfl, fun hge ↦ ?_⟩, fun core ↦ ?_⟩
  · omega
  cases core with
  | brisc =>
    refine (resetless_features.phase (fun _ ↦ True) h.brisc (fun _ _ _ _ ↦ trivial) (fun _ _ _ _ ↦
      trivial) h.live trivial).imp ?_ fun _ _ _ ↦ trivial
    exact fun op t hop ↦ ⟨hop.1.mono fun _ _ ↦ pollStores_of_setupStores, hop.2.1⟩
  | trisc1 => exact Ensures.ofAlways h.trisc1 _
  | driver =>
    exact (ensures_true _ _).imp (fun _ _ _ ↦ trivial) fun _ _ _ ↦ trivial
  | trisc2 =>
    refine (Ensures.keeping (fun t : SlotScene ↦ passes .trisc2 t.trace =
      passes .trisc2 c.scene.trace ∧ shownFeatures slot t.memory = shownFeatures slot
      c.scene.memory) h.trisc2 ?_ ?_ ⟨rfl, rfl⟩).imp (fun _ _ hop ↦ .inl hop.1) ?_
    · intro t t' hstep ht
      exact ⟨hstep.1.2.trans ht.1, hstep.1.1.trans ht.2⟩
    · intro op t htouches ht
      exact ⟨ht.1, ((htouches.kept t.memory).eq _).trans ht.2⟩
    · intro seen t ht
      exact .inl ⟨ht.2.1, ht.1, ht.2.2⟩

/-- What DEVICE_FEATURES shows after a full visit. -/
theorem Unhurried.follow (hslot : slot < numSlots) {last after : ℕ} {c : SlotConfig D}
    (h : Unhurried slot last c)
    (hlast : featuresSel slot c.scene.memory = last → shownFeatures slot c.scene.memory = after)
    (hdiffers : featuresSel slot c.scene.memory ≠ last →
      featureWord slot (featuresSel slot c.scene.memory) = after) (hafter : after < 2 ^ 32)
    {turns : List (Turn SlotCore ByteStore)}
    (hturns : (slotCores slot drive).Admits (Undriven slot) c turns)
    (hvisit : passes .trisc2 c.scene.trace <
      completed .trisc2 ((slotCores slot drive).follow c turns)) :
    featuresSel slot ((slotCores slot drive).follow c turns).scene.memory =
        featuresSel slot c.scene.memory ∧
      shownFeatures slot ((slotCores slot drive).follow c turns).scene.memory = after := by
  have hfinal := (featureOutline_sound hslot hlast hdiffers hafter).follow (h.holds drive) hturns
  refine ⟨hfinal.inv.2.1, ?_⟩
  have htrisc2 := hfinal.at_rest .trisc2
  unfold completed at hvisit
  cases hrest : ((slotCores slot drive).follow c turns).rest .trisc2 with
  | done seen =>
    rw [hrest] at hvisit htrisc2
    rcases htrisc2 with ⟨hbase, -⟩ | ⟨-, -, hshown⟩
    · exact absurd hvisit (by rw [hbase]; exact lt_irrefl _)
    · exact hshown
  | step op next =>
    rw [hrest] at hvisit
    refine hfinal.inv.2.2 ?_
    simp only at hvisit
    omega

/-- DEVICE_FEATURES after the guest has stopped. Assumes: a slot of the engine; when the guest
stops, no reset is pending, BRISC is not in the STATUS phase of its poll, and TRISC2 is done with
storing in its visit and ends it having seen the selector `last`; the cores then take their turns in
any order, and TRISC2 completes a visit begun since. The cell shows the selected half exactly when
the selector differs from `last` or the cell showed it already. -/
theorem deviceFeatures_shown_iff (hslot : slot < numSlots) (drive : D → Prog D) {last : ℕ}
    {c : SlotConfig D} (h : Unhurried slot last c) {turns : List (Turn SlotCore ByteStore)}
    (hturns : (slotCores slot drive).Admits (Undriven slot) c turns)
    (hvisit : passes .trisc2 c.scene.trace <
      completed .trisc2 ((slotCores slot drive).follow c turns)) :
    shownFeatures slot ((slotCores slot drive).follow c turns).scene.memory =
        featureWord slot
          (featuresSel slot ((slotCores slot drive).follow c turns).scene.memory) ↔
      featuresSel slot c.scene.memory ≠ last ∨
        shownFeatures slot c.scene.memory = featureWord slot (featuresSel slot c.scene.memory) := by
  by_cases hlast : featuresSel slot c.scene.memory = last
  · obtain ⟨hsel, hshown⟩ := h.follow hslot (fun _ ↦ rfl) (fun hne ↦ absurd hlast hne)
      (cell_lt (.reg mmioDeviceFeatures) _) hturns hvisit
    rw [hsel, hshown]
    simp [hlast]
  · obtain ⟨hsel, hshown⟩ := h.follow hslot (fun heq ↦ absurd heq hlast) (fun _ ↦ rfl)
      featureWord_lt hturns hvisit
    rw [hsel, hshown]
    simp [hlast]

/-- Slot `0` with both halves of the feature bits in DEVICE_FEATURES, where `init_device` stores
them, and nothing else in L1. -/
def freshSlot : World := l1World [(regAddr 0 mmioDeviceFeatures, 4, 1)]

theorem deviceFeatures_shown_first :
    passes .trisc2 (betweenPasses freshSlot 0 dfselSentinel ()).scene.trace = 0 ∧
      shownFeatures 0 ((slotCores 0 fun _ : Unit ↦ pure ()).follow
          (betweenPasses freshSlot 0 dfselSentinel ())
          (List.replicate 5 (.core .trisc2))).scene.memory = featureWord 0 0 := by
  have hturns : (slotCores 0 fun _ : Unit ↦ pure ()).Admits (Undriven 0)
      (betweenPasses freshSlot 0 dfselSentinel ()) (List.replicate 5 (.core .trisc2)) := by
    decide +kernel
  have hrest : Unhurried 0 dfselSentinel (betweenPasses freshSlot 0 dfselSentinel ()) :=
    ⟨by decide +kernel, trivial, trivial, rfl⟩
  refine ⟨rfl, ?_⟩
  have hshown := (deviceFeatures_shown_iff (by decide) _ hrest hturns (by decide +kernel)).mpr
    (.inl (by decide +kernel))
  decide +kernel

/-- A guest that sets STATUS and then resets the device, while TRISC2 has seen the selector zero:
BRISC plants both halves, and no visit of TRISC2 corrects the cell. -/
theorem deviceFeatures_after_reset :
    let cores := slotCores 0 (scripted 0)
    let visit := List.replicate 5 (Turn.core .trisc2)
    let stop := cores.follow
      (betweenPasses freshSlot 0 dfselSentinel [(mmioStatus, 1), (mmioStatus, 0)])
      (visit ++ List.replicate 2 (.core .driver) ++ List.replicate 20 (.core .brisc) ++
        List.replicate 2 (.core .driver))
    let final := cores.follow stop
      (List.replicate 400 (.core .brisc) ++ visit ++ List.replicate 40 (.core .brisc))
    passes .brisc stop.scene.trace < completed .brisc final ∧
      passes .trisc2 stop.scene.trace < completed .trisc2 final ∧
      featuresSel 0 final.scene.memory = 0 ∧
      shownFeatures 0 final.scene.memory ≠ featureWord 0 0 := by
  decide +kernel

end Bhx.Firmware
