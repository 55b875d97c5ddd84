import LastSietch.Augments.Commits

/-!
# What a write does to the other slots

A committed write replaces the whole block by one that was worked out before it held the item. When
the block is still the one that the request was made from, and its slots can be read, the slots that
the request does not name come out as they were.
-/

namespace LastSietch.Augments

open Runs (exec Along)

variable {rt : Runtime}

/-! ## A block that is still there -/

/-- The request was made from the block of `stats`, whose slots have names of their own. -/
structure Planned.Fresh (rt : Runtime) (p : Planned) (stats : Fields) : Prop where
  block : p.read.lookup "FAugmentedItemStats" = stats.lookup "FAugmentedItemStats"
  names : p.current = installedAugmentIds rt stats
  named : Named stats

structure Planned.Kept (rt : Runtime) (p : Planned) : Prop where
  asked : Asked p.current p.body
  live : Live rt p.body p.read p.tx

theorem part_congr {stats stats' : Fields}
    (h : stats.lookup "FAugmentedItemStats" = stats'.lookup "FAugmentedItemStats") :
    part stats = part stats' := by
  funext key
  simp only [part, part?, h]

namespace Planned

variable {p : Planned} {stats : Fields}

theorem Fresh.part_eq (h : p.Fresh rt stats) : part p.read = part stats := part_congr h.block

theorem ids_map (hkept : p.Kept rt) (hfresh : p.Fresh rt stats)
    (hroom : slotCount stats ≤ p.tx.ids.length) :
    p.tx.ids = p.body.augments.map strip ∧ p.current.length = slotCount stats ∧
      p.body.augments.length = slotCount stats := by
  have hcurrent : p.current.length = slotCount stats := by
    rw [hfresh.names]
    exact hfresh.named.length_installed
  have hlength : p.body.augments.length = slotCount stats := by
    cases hkept.asked with
    | reroll haugments => rw [haugments, hcurrent]
    | swap k incoming haugments => rw [haugments, List.length_set, hcurrent]
  exact ⟨validateAugmentIds_eq hkept.live.ids (hlength ▸ hroom), hcurrent, hlength⟩

/-- The list that is written has the names of the slots, apart from the one that is swapped. -/
theorem ids_eq (hkept : p.Kept rt) (hfresh : p.Fresh rt stats)
    (hroom : slotCount stats ≤ p.tx.ids.length) :
    p.tx.ids.length = slotCount stats ∧
      ∀ i a, p.body.swapSlot ≠ some i → slotName stats i = some (.str a) →
        p.tx.ids[i]? = some a := by
  obtain ⟨hids, hcurrent, hlength⟩ := ids_map hkept hfresh hroom
  refine ⟨by rw [hids, List.length_map, hlength], fun i a hi hname => ?_⟩
  have hinstalled : p.current[i]? = some a := by
    rw [hfresh.names]
    exact hfresh.named.installed hname
  have hstrip : strip a = a := by
    obtain ⟨b, hb, _, hstrip⟩ := hfresh.named.named (slotName_lt hname)
    cases hname.symm.trans hb
    exact hstrip
  have haugment : p.body.augments[i]? = some a := by
    cases hkept.asked with
    | reroll haugments => rw [haugments, hinstalled]
    | swap k incoming haugments _ hslot =>
      have hki : k ≠ i := by
        rintro rfl
        exact hi hslot
      rw [haugments, List.getElem?_set_ne hki, hinstalled]
  rw [hids, List.getElem?_map, haugment, Option.map_some, hstrip]

theorem grades_eq (hkept : p.Kept rt) (hfresh : p.Fresh rt stats)
    (hroom : slotCount stats ≤ p.tx.ids.length) {i : Nat} {g : Int}
    (hi : p.body.swapSlot ≠ some i) (hlt : i < slotCount stats)
    (hgrade : slotGrade stats i = some (.int g)) (hg : 1 ≤ g ∧ g ≤ 5) :
    p.tx.grades[i]? = some g := by
  obtain ⟨a, hname, _⟩ := hfresh.named.named hlt
  have hid := (ids_eq hkept hfresh hroom).2 i a hi hname
  have hdict : dictGet (installedGrades rt p.read) a = some g := by
    unfold installedGrades
    rw [hfresh.part_eq]
    exact hfresh.named.dictGet_grades hname hgrade hg
  have hmap : (p.tx.ids.map fun a => (dictGet (installedGrades rt p.read) a).getD
      (p.body.grade.getD 5))[i]? = some g := by
    rw [List.getElem?_map, hid, Option.map_some, hdict]
    rfl
  rw [hkept.live.grades]
  unfold resolveGrades
  split
  · rename_i k hk
    have hki : k ≠ i := by
      rintro rfl
      exact hi hk
    rw [List.getElem?_set_ne hki]
    exact hmap
  · exact hmap

theorem newly_installed (hkept : p.Kept rt) (hfresh : p.Fresh rt stats)
    (hroom : slotCount stats ≤ p.tx.ids.length) {k : Nat} (hk : p.body.swapSlot = some k) :
    newlyInstalledSlots rt p.tx.ids p.read p.body.swapSlot = [k] := by
  have hnodup : (newlyInstalledSlots rt p.tx.ids p.read p.body.swapSlot).Nodup := by
    have hrange : (p.tx.ids.zipIdx.map (·.2)).Nodup := by
      rw [List.zipIdx_map_snd]
      exact List.nodup_range'
    exact hrange.sublist (List.filter_sublist.map _)
  have hmem : ∀ i, i ∈ newlyInstalledSlots rt p.tx.ids p.read p.body.swapSlot ↔ i = k := by
    intro i
    simp only [newlyInstalledSlots, List.mem_map, List.mem_filter, decide_eq_true_eq, Prod.exists,
      List.mem_zipIdx_iff_getElem?, exists_eq_right]
    constructor
    · rintro ⟨a, hid, hnew | hnew⟩
      · exact Option.some.inj (hnew.trans hk)
      · by_contra hik
        have hswap : p.body.swapSlot ≠ some i := by
          rw [hk]
          exact fun h => hik (Option.some.inj h).symm
        obtain ⟨hlength, hids⟩ := ids_eq hkept hfresh hroom
        have hlt : i < slotCount stats := hlength ▸ (List.getElem?_eq_some_iff.mp hid).1
        obtain ⟨b, hname, _⟩ := hfresh.named.named hlt
        cases hid.symm.trans (hids i b hswap hname)
        refine hnew ?_
        rw [installedAugmentIds, hfresh.part_eq]
        exact List.mem_of_getElem? (@Named.installed rt _ hfresh.named _ _ hname)
    · rintro rfl
      exact ⟨_, List.getElem?_eq_getElem (hkept.live.slot i hk), Or.inl hk.symm⟩
  refine List.perm_singleton.mp ((List.perm_ext_iff_of_nodup hnodup (List.nodup_singleton k)).mpr
    fun i => ?_)
  rw [hmem, List.mem_singleton]

theorem specs_of_reroll (hkept : p.Kept rt) (hslot : p.body.swapSlot = none) :
    p.tx.consumeSpecs = [] := by
  rw [hkept.live.specs]
  cases hkept.asked with
  | reroll _ hconsume =>
    rw [hconsume]
    rfl
  | swap k incoming _ _ hswap => exact absurd (hslot.symm.trans hswap) nofun

theorem specs_of_swap (hkept : p.Kept rt) (hfresh : p.Fresh rt stats)
    (hroom : slotCount stats ≤ p.tx.ids.length) {k : Nat} (hk : p.body.swapSlot = some k) :
    p.tx.consumeSpecs = [⟨p.tx.ids.getD k "", p.tx.grades.getD k 0, k⟩] := by
  rw [hkept.live.specs, newly_installed hkept hfresh hroom hk]
  cases hkept.asked with
  | reroll _ _ hslot => exact absurd (hk.symm.trans hslot) nofun
  | swap _ _ _ hconsume =>
    rw [hconsume]
    rfl

theorem specs_slot (hkept : p.Kept rt) (hfresh : p.Fresh rt stats)
    (hroom : slotCount stats ≤ p.tx.ids.length) {s : ConsumeSpec} (hs : s ∈ p.tx.consumeSpecs) :
    p.body.swapSlot = some s.slot := by
  cases hk : p.body.swapSlot with
  | none =>
    rw [specs_of_reroll hkept hk] at hs
    cases hs
  | some k =>
    rw [specs_of_swap hkept hfresh hroom hk] at hs
    rw [List.mem_singleton.mp hs]

end Planned

abbrev Tx.Names (t : Tx) (i : Nat) : Prop :=
  ∀ only ∈ t.rerollOnly, ∃ a ∈ only, t.ids[i]? = some a

theorem Tx.not_names {t : Tx} {i : Nat} (h : ¬t.Names i) :
    ∃ only, t.rerollOnly = some only ∧ ∀ a ∈ only, t.ids[i]? ≠ some a := by
  unfold Tx.Names at h
  push Not at h
  exact h

namespace Planned

variable {p : Planned} {stats : Fields}

theorem swapped_named (hkept : p.Kept rt) (hfresh : p.Fresh rt stats)
    (hroom : slotCount stats ≤ p.tx.ids.length) {k : Nat} (hk : p.body.swapSlot = some k) :
    p.tx.Names k := by
  obtain ⟨hids, _⟩ := ids_map hkept hfresh hroom
  intro only honly
  cases hkept.asked with
  | reroll _ _ hslot => exact absurd (hk.symm.trans hslot) nofun
  | swap k' incoming haugments _ hslot hincoming =>
    cases hk.symm.trans hslot
    have hlt := hkept.live.slot k hk
    have hset : p.tx.ids[k]? = some (strip incoming) := by
      rw [hids, haugments, List.length_map, List.length_set] at hlt
      rw [hids, haugments, List.getElem?_map, List.getElem?_set_self hlt]
      rfl
    have hne := ne_empty_of_validated hkept.live.ids (List.mem_of_getElem? hset)
    have hvalid := hkept.live.only
    rw [hincoming, honly] at hvalid
    obtain ⟨only', hvalid, heq⟩ := map_eq_ok.mp hvalid
    cases heq
    have hsingle := validateAugmentIds_singleton hne (orRaise_eq_ok.mp hvalid)
    exact ⟨strip incoming, by rw [hsingle]; exact List.mem_cons_self, hset⟩

theorem payloads_eq (hkept : p.Kept rt) (hfresh : p.Fresh rt stats)
    (hcalm : Calm rt stats) {i : Nat} {a : String}
    (hid : p.tx.ids[i]? = some a) (hname : slotName stats i = some (.str a))
    (hrolls : RollsReadable rt stats i) (hnot : ¬p.tx.Names i) :
    ∃ rolls indices, p.tx.payloads[i]? = some ⟨rolls, indices⟩ ∧
      slotIndices stats i = some (.arr indices) ∧
      (slotRolls stats i).map Json.numeric = some (Json.numeric (.arr rolls)) := by
  obtain ⟨rolls, indices, hkeep, hindices, hnumeric⟩ :=
    hfresh.named.dictGet_rolls hcalm hname hrolls
  refine ⟨rolls, indices, ?_, hindices, hnumeric⟩
  obtain ⟨only, honly, hother⟩ := Tx.not_names hnot
  obtain ⟨rollCount, shapes, draw, hpayloads⟩ := hkept.live.payloads
  have hkeep' : dictGet (installedRolls rt p.read) a = some ⟨rolls, .arr indices⟩ := by
    unfold installedRolls
    rw [hfresh.part_eq]
    exact hkeep
  have hout : a ∉ only := fun ha => hother a ha hid
  unfold buildRollPayloads at hpayloads
  rw [getElem?_mapM hpayloads, List.getElem?_zipIdx, hid]
  simp only [Option.map_some, Option.bind_some, rollPayload, honly, hkeep', hout,
    not_false_eq_true, if_true, listOf?]

/-! ## One write -/

abbrev Gradeable (p : Planned) (stats : Fields) : Prop :=
  ∀ i < slotCount stats, p.body.swapSlot ≠ some i → readableGrade (slotGrade stats i) = true

structure Whole (rt : Runtime) (p : Planned) (stats : Fields) : Prop where
  qualities : (part stats "AppliedAugmentQualities").length = slotCount stats
  rollData : (part stats "AppliedAugmentRollData").length = slotCount stats
  calm : Calm rt stats
  rolls : ∀ i < slotCount stats, ¬p.tx.Names i → RollsReadable rt stats i

end Planned

structure SameSlot (old new : Fields) (i : Nat) : Prop where
  name : slotName new i = slotName old i
  grade : slotGrade new i = slotGrade old i
  rolls : (slotRolls new i).map Json.numeric = (slotRolls old i).map Json.numeric
  indices : slotIndices new i = slotIndices old i

theorem SameSlot.refl (stats : Fields) (i : Nat) : SameSlot stats stats i := ⟨rfl, rfl, rfl, rfl⟩

theorem SameSlot.trans {a b c : Fields} {i : Nat} (h : SameSlot a b i) (h' : SameSlot b c i) :
    SameSlot a c i :=
  ⟨h'.name.trans h.name, h'.grade.trans h.grade, h'.rolls.trans h.rolls, h'.indices.trans h.indices⟩

def baseKeys : List String :=
  ["FCustomizationStats", "FItemStackAndDurabilityStats", "FWeaponItemStats"]

theorem lookup_baseBlocks (isWeapon : Bool) (stats : Fields) (key : String) :
    (baseBlocks isWeapon stats).lookup key = stats.lookup key ∨
      stats.lookup key = none ∧ key ∈ baseKeys := by
  have hensure : ∀ (fields : Fields) (k : String) (v : Json), k ∈ baseKeys →
      (fields.lookup key = stats.lookup key ∨ stats.lookup key = none ∧ key ∈ baseKeys) →
      ((fields.ensure k v).lookup key = stats.lookup key ∨
        stats.lookup key = none ∧ key ∈ baseKeys) := by
    rintro fields k v hk (hold | hnew)
    · rcases Fields.lookup_ensure fields k v key with hsame | ⟨rfl, hnone, _⟩
      · exact Or.inl (hsame.trans hold)
      · exact Or.inr ⟨hold.symm.trans hnone, hk⟩
    · exact Or.inr hnew
  unfold baseBlocks
  have hbase := hensure _ "FItemStackAndDurabilityStats" (.arr [.arr [], .obj
    [("CurrentDurability", .int 100), ("MaxDurability", .int 100),
      ("DecayedMaxDurability", .int 100)]]) (by decide)
    (hensure stats "FCustomizationStats" (.arr [.arr [], .obj []]) (by decide) (Or.inl rfl))
  dsimp only
  split
  · exact hensure _ _ _ (by decide) hbase
  · exact hbase

structure Write.Framed (w : Write) : Prop where
  same : ∀ i, ¬w.tx.Names i → SameSlot w.oldStats w.newStats i
  aligned : (part w.newStats "AppliedAugmentQualities").length = slotCount w.newStats ∧
    (part w.newStats "AppliedAugmentRollData").length = slotCount w.newStats
  longer : ∀ key ∈ ["AppliedAugments", "AppliedAugmentQualities", "AppliedAugmentRollData"],
    (part w.oldStats key).length ≤ (part w.newStats key).length
  others : ∀ key, key ≠ "FAugmentedItemStats" → w.newStats.lookup key = w.oldStats.lookup key ∨
    w.oldStats.lookup key = none ∧ key ∈ baseKeys

theorem slotCount_of_arrayLength {stats : Fields} {n : Nat}
    (h : arrayLength (part? stats "AppliedAugments") = .ok n) : slotCount stats = n := by
  unfold slotCount part
  unfold arrayLength at h
  split at h
  · rename_i hnone
    cases h
    rw [hnone]
    rfl
  · rename_i hsome
    cases h
    rw [hsome]
    rfl
  · cases h

namespace Applied

variable {db : Db} {p : Planned} {w : Write}

theorem room (happ : Applied db p.tx w) : slotCount w.oldStats ≤ p.tx.ids.length := by
  obtain ⟨n, hn, hle⟩ := happ.slots
  rw [slotCount_of_arrayLength hn]
  exact hle

theorem same (happ : Applied db p.tx w) (hkept : p.Kept rt) (hfresh : p.Fresh rt w.oldStats)
    (hgradeable : p.Gradeable w.oldStats) (hwhole : p.Whole rt w.oldStats) {i : Nat}
    (hnot : ¬p.tx.Names i) : SameSlot w.oldStats w.newStats i := by
  obtain ⟨payloads, hstats, _, hgrades, hpayloads, hkeep⟩ := happ.stats
  obtain ⟨hlength, hids⟩ := Planned.ids_eq hkept hfresh happ.room
  by_cases hlt : i < slotCount w.oldStats
  · obtain ⟨a, hname, _⟩ := hfresh.named.named hlt
    have hswap : p.body.swapSlot ≠ some i := fun h =>
      hnot (Planned.swapped_named hkept hfresh happ.room h)
    have hid := hids i a hswap hname
    obtain ⟨g, hgrade, hg⟩ := readableGrade_iff.mp (hgradeable i hlt hswap)
    have hwritten := Planned.grades_eq hkept hfresh happ.room hswap hlt hgrade hg
    obtain ⟨rolls, indices, hpayload, hindices, hnumeric⟩ :=
      Planned.payloads_eq hkept hfresh hwhole.calm hid hname (hwhole.rolls i hlt hnot) hnot
    have hkeep : payloads[i]? = some ⟨rolls, indices⟩ := by
      rw [hkeep i fun s hs hsi => hswap ?_, hpayload]
      rw [Planned.specs_slot hkept hfresh happ.room hs, hsi]
    rw [hstats]
    exact ⟨by rw [slotName_put, hid, hname]; rfl, by rw [slotGrade_put, hwritten, hgrade]; rfl,
      by rw [slotRolls_put, hkeep, hnumeric]; rfl, by rw [slotIndices_put, hkeep, hindices]; rfl⟩
  · have hge : slotCount w.oldStats ≤ i := Nat.le_of_not_lt hlt
    have hids : p.tx.ids[i]? = none := List.getElem?_eq_none (hlength ▸ hge)
    have hgrade : p.tx.grades[i]? = none := List.getElem?_eq_none (by omega)
    have hpayload : payloads[i]? = none := List.getElem?_eq_none (by omega)
    have happlied : (part w.oldStats "AppliedAugments")[i]? = none := List.getElem?_eq_none hge
    have hquality : (part w.oldStats "AppliedAugmentQualities")[i]? = none :=
      List.getElem?_eq_none (hwhole.qualities ▸ hge)
    have hdata : (part w.oldStats "AppliedAugmentRollData")[i]? = none :=
      List.getElem?_eq_none (hwhole.rollData ▸ hge)
    rw [hstats]
    exact ⟨by rw [slotName_put, hids, slotName_eq, happlied]; rfl,
      by rw [slotGrade_put, hgrade, slotGrade_eq, hquality]; rfl,
      by rw [slotRolls_put, hpayload, slotRolls_eq, hdata]; rfl,
      by rw [slotIndices_put, hpayload, slotIndices_eq, hdata]; rfl⟩

theorem framed (happ : Applied db p.tx w) (hkept : p.Kept rt) (hfresh : p.Fresh rt w.oldStats)
    (hgradeable : p.Gradeable w.oldStats) (hwhole : p.Whole rt w.oldStats) : w.Framed := by
  obtain ⟨payloads, hstats, _, hgrades, hpayloads, _⟩ := happ.stats
  have hlengths := @length_part_put (baseBlocks p.tx.isWeapon w.oldStats) p.tx.ids p.tx.grades payloads
  rw [← hstats] at hlengths
  obtain ⟨happlied, hqualities, hrollData⟩ := hlengths
  have hroom := happ.room
  refine ⟨fun i hi => happ.same hkept hfresh hgradeable hwhole (happ.tx ▸ hi), ?_, ?_, ?_⟩
  · unfold slotCount
    omega
  · have hq := hwhole.qualities
    have hr := hwhole.rollData
    unfold slotCount at hroom hq hr
    intro key hkey
    simp only [List.mem_cons, List.not_mem_nil, or_false] at hkey
    rcases hkey with rfl | rfl | rfl <;> omega
  · intro key hkey
    rw [hstats, Fields.lookup_put, if_neg hkey]
    exact lookup_baseBlocks p.tx.isWeapon w.oldStats key

end Applied

/-! ## Runs -/

def Stage.Kept (rt : Runtime) : Stage → Prop
  | .probed current body => Asked current body
  | .planned p | .begun p _ | .counted p _ => p.Kept rt
  | .closed _ => True

def Sys.Kept (rt : Runtime) (s : Sys) : Prop := ∀ j ∈ s.jobs, j.stage.Kept rt

variable {cat : Catalogue} {s s' : Sys}

theorem Sys.Kept.moved (h : s.Kept rt) {i : Nat} {j : Job} {stage : Stage} (hstage : stage.Kept rt) :
    (s.move i j stage).Kept rt := by
  intro k hk
  rcases List.mem_or_eq_of_mem_set hk with hk | rfl
  · exact h k hk
  · exact hstage

theorem probe_kept (r : Request) : (s.probe rt cat r).Kept rt := by
  unfold Sys.probe
  dsimp only
  split
  · rename_i body hbody
    exact asked_of_buildBody hbody
  · trivial

theorem plan_kept {r : Request} {current : List String} {body : Body} {draw : Nat → Nat → ℚ}
    (h : Asked current body) : (s.plan rt cat r current body draw).Kept rt := by
  unfold Sys.plan
  dsimp only
  split
  · rename_i tx htx
    exact ⟨h, live_of_doLive htx⟩
  · trivial

theorem Sys.Kept.step {a : Act} (h : s.Kept rt) (hstep : step rt cat s a = some s') : s'.Kept rt := by
  cases a with
  | tick d =>
    cases hstep
    exact h
  | player p =>
    cases hstep
    exact h
  | request r =>
    cases hstep
    intro j hj
    rcases List.mem_append.mp hj with hj | hj
    · exact h j hj
    · rw [List.mem_singleton.mp hj]
      exact probe_kept r
  | plan i draw =>
    simp only [Augments.step] at hstep
    split at hstep
    · rename_i r current body hj
      cases hstep
      exact h.moved (plan_kept (h _ (List.mem_of_getElem? hj)))
    · cases hstep
  | begin_ i =>
    simp only [Augments.step] at hstep
    split at hstep
    · rename_i r p hj
      cases hstep
      have hp : p.Kept rt := h _ (List.mem_of_getElem? hj)
      exact h.moved hp
    · cases hstep
  | check i =>
    simp only [Augments.step] at hstep
    split at hstep
    · rename_i r p began hj
      cases hstep
      have hp : p.Kept rt := h _ (List.mem_of_getElem? hj)
      refine h.moved ?_
      unfold Sys.check
      split
      · trivial
      · split
        · trivial
        · exact hp
    · cases hstep
  | write i =>
    simp only [Augments.step] at hstep
    split at hstep
    · rename_i r p began hj
      cases hstep
      unfold Sys.write
      split
      · exact h.moved (j := ⟨r, .counted p began⟩) trivial
      · exact h.moved trivial
    · cases hstep

def Sys.Finds (Q : Planned → Fields → Prop) (s : Sys) : Act → Prop
  | .write i => ∀ r p began, s.jobs[i]? = some ⟨r, .counted p began⟩ →
      ∀ it, s.db.items.get? p.tx.itemId = some it → Q p it.stats
  | _ => True

structure Planned.Intact (rt : Runtime) (p : Planned) (stats : Fields) : Prop where
  fresh : p.Fresh rt stats
  gradeable : p.Gradeable stats
  whole : p.Whole rt stats

theorem Applied.found {db : Db} {p : Planned} {w : Write} (happ : Applied db p.tx w)
    {Q : Planned → Fields → Prop}
    (hfinds : ∀ it, db.items.get? p.tx.itemId = some it → Q p it.stats) : Q p w.oldStats := by
  obtain ⟨it, hit, _, hstats, _⟩ := happ.item
  rw [hstats]
  exact hfinds it hit

theorem Applied.item_after {db : Db} {p : Planned} {w : Write} (happ : Applied db p.tx w) {it : Item}
    (hit : it ∈ w.after.items) :
    it.id ≠ p.tx.itemId ∧ it ∈ db.items ∨ it.id = p.tx.itemId ∧ it.stats = w.newStats := by
  obtain ⟨it₀, hit₀, _, _, items, hspent, hafter⟩ := happ.item
  rw [hafter, Table.mem_update] at hit
  obtain ⟨r, hr, hitr⟩ := hit
  have hrdb := ((hspent.items r).mp hr).1
  by_cases hid : r.id = p.tx.itemId
  · have hsame : r = it₀ :=
      Table.eq_of_key_eq hrdb (Table.mem_of_get? hit₀) (hid.trans (Table.key_of_get? hit₀).symm)
    subst hsame
    right
    rw [if_pos (decide_eq_true ⟨hid, rfl⟩)] at hitr
    rw [hitr]
    exact ⟨hid, rfl⟩
  · left
    rw [if_neg (fun h => hid (of_decide_eq_true h).1)] at hitr
    rw [hitr]
    exact ⟨hid, hrdb⟩

def Sys.Stays (s : Sys) : Prop :=
  ∀ l w rest, s.writes = l ++ w :: rest → ∀ it ∈ s.db.items, it.id = w.tx.itemId → ∀ i,
    (∀ w' ∈ rest, w'.tx.itemId = w.tx.itemId → ¬w'.tx.Names i) → SameSlot w.newStats it.stats i

structure Framed (rt : Runtime) (s : Sys) : Prop where
  kept : s.Kept rt
  writes : ∀ w ∈ s.writes, w.Framed
  stays : s.Stays

theorem Framed.step {a : Act} (h : Framed rt s) (hfinds : s.Finds (Planned.Intact rt) a)
    (hstep : step rt cat s a = some s') : Framed rt s' := by
  have hkept := h.kept.step hstep
  cases step_effect hstep with
  | idle hitems _ hwrites =>
    refine ⟨hkept, ?_, ?_⟩
    · rw [hwrites]
      exact h.writes
    · unfold Sys.Stays
      rw [hwrites, hitems]
      exact h.stays
  | wrote i ha r p began hjob w happly hdb hwrites =>
    subst ha
    have happ := applied_of_applyTx happly
    have hp : p.Kept rt := h.kept _ (List.mem_of_getElem? hjob)
    have hintact : p.Intact rt w.oldStats := happ.found (hfinds r p began hjob)
    have hframed := happ.framed hp hintact.fresh hintact.gradeable hintact.whole
    refine ⟨hkept, fun w' hw' => ?_, fun l w₀ rest hsplit it hit hid i hnot => ?_⟩
    · rw [hwrites] at hw'
      rcases List.mem_append.mp hw' with hw' | hw'
      · exact h.writes w' hw'
      · rw [List.mem_singleton.mp hw']
        exact hframed
    · rw [hdb] at hit
      rw [hwrites] at hsplit
      have hafter := happ.item_after hit
      have htx : w.tx = p.tx := happ.tx
      rcases List.eq_nil_or_concat rest with rfl | ⟨earlier, last, rfl⟩
      · obtain ⟨-, hlast⟩ := List.append_inj' hsplit rfl
        cases hlast
        rw [htx] at hid
        rcases hafter with ⟨hne, _⟩ | ⟨_, hstats⟩
        · exact absurd hid hne
        · rw [hstats]
          exact SameSlot.refl _ _
      · have hcons : l ++ w₀ :: (earlier ++ [last]) = (l ++ w₀ :: earlier) ++ [last] := by simp
        rw [List.concat_eq_append, hcons] at hsplit
        obtain ⟨hbefore, hlast⟩ := List.append_inj' hsplit rfl
        cases hlast
        have hearlier : ∀ w' ∈ earlier, w'.tx.itemId = w₀.tx.itemId → ¬w'.tx.Names i := fun w' hw' =>
          hnot w' (by rw [List.concat_eq_append]; exact List.mem_append_left _ hw')
        rcases hafter with ⟨_, hmem⟩ | ⟨hitem, hstats⟩
        · exact h.stays l w₀ earlier hbefore it hmem hid i hearlier
        · obtain ⟨it₀, hit₀, _, hold, _⟩ := happ.item
          have hsame : SameSlot w₀.newStats it₀.stats i := h.stays l w₀ earlier hbefore it₀
            (Table.mem_of_get? hit₀) ((Table.key_of_get? hit₀).trans (hitem.symm.trans hid)) i hearlier
          rw [← hold] at hsame
          have hunnamed : ¬w.tx.Names i := hnot w
            (by rw [List.concat_eq_append]; exact List.mem_append_right _ List.mem_cons_self)
            (htx ▸ hitem.symm.trans hid)
          rw [hstats]
          exact hsame.trans (hframed.same i hunnamed)

/-- In a run whose writes each find the block they were made from, with its slots readable, every
write leaves the slots it does not name and the item's other stats as they were, and what a write has
left at a slot stays there until another write names the slot. -/
theorem slots_framed (hstart : s.Start) {acts : List Act}
    (hfinds : Along (step rt cat) (Sys.Finds (Planned.Intact rt)) s acts)
    (hrun : exec (step rt cat) s acts = some s') : (∀ w ∈ s'.writes, w.Framed) ∧ s'.Stays := by
  have hframed : Framed rt s := by
    refine ⟨fun j hj => ?_, fun w hw => ?_, fun l w rest hsplit => ?_⟩
    · rw [hstart.jobs] at hj
      cases hj
    · rw [hstart.writes] at hw
      cases hw
    · rw [hstart.writes] at hsplit
      exact absurd hsplit (by simp)
  have hend := Runs.exec_invariant (I := Framed rt)
    (fun _ _ _ h hfinds hstep => h.step hfinds hstep) hframed hfinds hrun
  exact ⟨hend.writes, hend.stays⟩

/-! ### What can be decided -/

instance (p : Planned) (stats : Fields) : Decidable (p.Fresh rt stats) :=
  decidable_of_iff (p.read.lookup "FAugmentedItemStats" = stats.lookup "FAugmentedItemStats" ∧
      p.current = installedAugmentIds rt stats ∧ Named stats)
    ⟨fun h => ⟨h.1, h.2.1, h.2.2⟩, fun h => ⟨h.block, h.names, h.named⟩⟩

instance (p : Planned) (stats : Fields) : Decidable (p.Whole rt stats) :=
  decidable_of_iff ((part stats "AppliedAugmentQualities").length = slotCount stats ∧
      (part stats "AppliedAugmentRollData").length = slotCount stats ∧ Calm rt stats ∧
      ∀ i < slotCount stats, ¬p.tx.Names i → RollsReadable rt stats i)
    ⟨fun h => ⟨h.1, h.2.1, h.2.2.1, h.2.2.2⟩, fun h => ⟨h.qualities, h.rollData, h.calm, h.rolls⟩⟩

instance (p : Planned) (stats : Fields) : Decidable (p.Intact rt stats) :=
  decidable_of_iff (p.Fresh rt stats ∧ p.Gradeable stats ∧ p.Whole rt stats)
    ⟨fun h => ⟨h.1, h.2.1, h.2.2⟩, fun h => ⟨h.fresh, h.gradeable, h.whole⟩⟩

instance (Q : Planned → Fields → Prop) [∀ p stats, Decidable (Q p stats)] (s : Sys) :
    (a : Act) → Decidable (s.Finds Q a)
  | .tick _ | .player _ | .request _ | .plan _ _ | .begin_ _ | .check _ => .isTrue trivial
  | .write i =>
    match h : s.jobs[i]? with
    | some ⟨r, .counted p began⟩ =>
      decidable_of_iff (∀ it ∈ s.db.items.get? p.tx.itemId, Q p it.stats)
        ⟨fun hp r' p' began' h' => by rw [h] at h'; cases h'; exact hp, fun hp => hp r p began h⟩
    | some ⟨_, .probed _ _⟩ | some ⟨_, .planned _⟩ | some ⟨_, .begun _ _⟩ | some ⟨_, .closed _⟩
    | none => .isTrue fun _ _ _ h' => by rw [h] at h'; cases h'

instance (old new : Fields) (i : Nat) : Decidable (SameSlot old new i) :=
  decidable_of_iff (slotName new i = slotName old i ∧ slotGrade new i = slotGrade old i ∧
      (slotRolls new i).map Json.numeric = (slotRolls old i).map Json.numeric ∧
      slotIndices new i = slotIndices old i)
    ⟨fun h => ⟨h.1, h.2.1, h.2.2.1, h.2.2.2⟩, fun h => ⟨h.name, h.grade, h.rolls, h.indices⟩⟩

/-! ### Two slots of one weapon -/

def sideBySide : List Act :=
  [.request (reroll 1 (some ["T6_Augment_A"])), .request (reroll 2 (some ["T6_Augment_B"])),
   .plan 0 (fun _ _ => 1 / 4), .plan 1 (fun _ _ => 1 / 8), .begin_ 0, .check 0, .write 0, .begin_ 1,
   .check 1, .write 1]

theorem sideBySide_run : (exec (step plainRuntime openCatalogue) armory sideBySide).isSome := by
  decide

/-- The second write puts the rolls back that the first one has replaced. -/
theorem reroll_undone : armory.Start ∧
    ∃ s', exec (step plainRuntime openCatalogue) armory sideBySide = some s' ∧
      ∃ w ∈ s'.writes, ¬w.Framed := by
  have hrun := (Option.some_get sideBySide_run).symm
  refine ⟨armory_start, _, hrun, ?_⟩
  have hundone : ∃ w ∈ ((exec (step plainRuntime openCatalogue) armory sideBySide).get
      sideBySide_run).writes, ¬w.tx.Names 0 ∧ ¬SameSlot w.oldStats w.newStats 0 := by
    decide +kernel
  obtain ⟨w, hw, hnot, hother⟩ := hundone
  exact ⟨w, hw, fun hframed => hother (hframed.same 0 hnot)⟩

def swap (key : Nat) (slot : Nat) (incoming : String) (grade : Int) : Request :=
  { ownerCtrl := 1, itemId := 100, mode := .swap,
    augments := ["T6_Augment_A", "T6_Augment_B"].set slot incoming, rerollOnly := none,
    swapSlot := some slot, swapGrade := none, idempotencyKey := key, owned := [(incoming, some grade)],
    targetedUpgrade := true }

/-- A reroll of the first slot, a swap of the second for the same augment of a higher grade, and a
retry of the reroll. -/
def rerollAndSwap : List Act :=
  [.request (reroll 1 (some ["T6_Augment_A"]))] ++ finish 0 ++
    [.request (swap 2 1 "T6_Augment_B" 5)] ++ finish 1 ++
    [.request (reroll 1 (some ["T6_Augment_A"])), .plan 2 (fun _ _ => 1 / 4), .begin_ 2, .check 2]

theorem rerollAndSwap_run :
    (exec (step plainRuntime openCatalogue) armory rerollAndSwap).isSome := by decide +kernel

theorem slots_framed_rerollAndSwap :
    ∃ s', exec (step plainRuntime openCatalogue) armory rerollAndSwap = some s' ∧
      s'.writes.length = 2 ∧ (∀ w ∈ s'.writes, w.Framed) ∧ s'.Stays := by
  have hfinds : Along (step plainRuntime openCatalogue) (Sys.Finds (Planned.Intact plainRuntime))
      armory rerollAndSwap := by
    decide +kernel
  have hrun := (Option.some_get rerollAndSwap_run).symm
  exact ⟨_, hrun, by decide +kernel, slots_framed armory_start hfinds hrun⟩

end LastSietch.Augments
