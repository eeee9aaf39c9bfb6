import Mathlib.Data.List.Basic
import Mathlib.Data.List.Induction
import Mathlib.Tactic.Common

/-! # Settings of a record

    A record is set up from texts: each setting has a key, says which texts
    it reads and as what, and has a field of the record. A text for a key
    changes that field if the setting can read it, and nothing otherwise.
    Settings come in groups, one for each part of the record.

    * `Lens`: a field;
    * `KeyedSetting`, `assign`: one group, looked up by key;
    * `Group`, `assignIn`: all groups, looked up by name and key;
    * `get_assignIn`: what one text does to each field;
    * `get_assignAll`: after many texts a field has the last value that its
      setting could read, or the one it had. -/

namespace FmSdrTuner

/-! ### Fields -/

/-- A field of the record type `S` with values in `V`. -/
structure Lens (S V : Type) where
  get : S → V
  set : S → V → S
  get_set : ∀ s v, get (set s v) = v
  set_get : ∀ s, set s (get s) = s

/-- A field of a field. -/
def Lens.comp {C S V : Type} (l : Lens C S) (m : Lens S V) : Lens C V where
  get c := m.get (l.get c)
  set c v := l.set c (m.set (l.get c) v)
  get_set c v := by rw [l.get_set, m.get_set]
  set_get c := by rw [m.set_get, l.set_get]

/-! ### One group -/

variable {κ τ S C : Type}

/-- A key, what is read of a text, and where it goes. -/
structure KeyedSetting (κ τ S : Type) where
  key : κ
  V : Type
  read : τ → Option V
  field : Lens S V

namespace KeyedSetting

def get (x : KeyedSetting κ τ S) (s : S) : x.V := x.field.get s

/-- Set the field to what is read, if anything is. -/
def assign (x : KeyedSetting κ τ S) (t : τ) (s : S) : S :=
  match x.read t with
  | some v => x.field.set s v
  | none => s

theorem get_assign (x : KeyedSetting κ τ S) (t : τ) (s : S) :
    x.get (x.assign t s) = (x.read t).getD (x.get s) := by
  unfold assign get
  cases x.read t with
  | none => rfl
  | some v => exact x.field.get_set s v

theorem assign_eq_self {x : KeyedSetting κ τ S} {t : τ} (h : x.read t = none) (s : S) :
    x.assign t s = s := by
  unfold assign
  rw [h]

/-- Two settings with different keys and fields. -/
structure Apart (x y : KeyedSetting κ τ S) : Prop where
  key_ne : x.key ≠ y.key
  get_set_left : ∀ s v, y.field.get (x.field.set s v) = y.field.get s
  get_set_right : ∀ s v, x.field.get (y.field.set s v) = x.field.get s

theorem Apart.symm {x y : KeyedSetting κ τ S} (h : x.Apart y) : y.Apart x :=
  ⟨h.key_ne.symm, h.get_set_right, h.get_set_left⟩

theorem Apart.get_assign {x y : KeyedSetting κ τ S} (h : x.Apart y) (t : τ) (s : S) :
    y.get (x.assign t s) = y.get s := by
  unfold assign get
  cases x.read t with
  | none => rfl
  | some v => exact h.get_set_left s v

end KeyedSetting

variable [DecidableEq κ]

/-- Assign to the first setting with the key, if there is one. -/
def assign (xs : List (KeyedSetting κ τ S)) (k : κ) (t : τ) (s : S) : S :=
  match xs.find? fun x => k = x.key with
  | some x => x.assign t s
  | none => s

section assign
variable {xs : List (KeyedSetting κ τ S)} {x : KeyedSetting κ τ S} {k : κ} {t : τ} {s : S}

theorem assign_cons (y : KeyedSetting κ τ S) (ys : List (KeyedSetting κ τ S)) :
    assign (y :: ys) k t s = if k = y.key then y.assign t s else assign ys k t s := by
  unfold assign
  by_cases h : k = y.key <;> simp [h]

theorem assign_frame (hx : ∀ y ∈ xs, y.Apart x) : x.get (assign xs k t s) = x.get s := by
  induction xs with
  | nil => rfl
  | cons y ys ih =>
    rw [assign_cons]
    split
    · exact (hx y List.mem_cons_self).get_assign t s
    · exact ih fun z hz => hx z (List.mem_cons_of_mem y hz)

/-- What a text for the key `k` does to each field of the group. -/
theorem get_assign (hxs : xs.Pairwise KeyedSetting.Apart) (hx : x ∈ xs) :
    x.get (assign xs k t s) = if k = x.key then (x.read t).getD (x.get s) else x.get s := by
  induction xs with
  | nil => cases hx
  | cons y ys ih =>
    obtain ⟨hapart, hys⟩ := List.pairwise_cons.mp hxs
    rw [assign_cons]
    rcases List.mem_cons.mp hx with rfl | hx'
    · split
      · exact x.get_assign t s
      · exact assign_frame fun z hz => (hapart z hz).symm
    · split
      · next hkey =>
        have hne : k ≠ x.key := by
          intro heq
          exact (hapart x hx').key_ne (hkey.symm.trans heq)
        rw [if_neg hne]
        exact (hapart x hx').get_assign t s
      · exact ih hys hx'

/-- A text that no setting with the key reads changes nothing. -/
theorem assign_eq_self (h : ∀ y ∈ xs, k = y.key → y.read t = none) : assign xs k t s = s := by
  induction xs with
  | nil => rfl
  | cons y ys ih =>
    rw [assign_cons]
    split
    · next hkey => exact KeyedSetting.assign_eq_self (h y List.mem_cons_self hkey) s
    · exact ih fun z hz => h z (List.mem_cons_of_mem y hz)

end assign

/-! ### All groups -/

/-- The settings of one part of the record `C`. -/
structure Group (κ τ C : Type) where
  name : κ
  S : Type
  part : Lens C S
  settings : List (KeyedSetting κ τ S)

namespace Group

/-- The settings of a group, as settings of the whole record. -/
def flat (g : Group κ τ C) : List (KeyedSetting (κ × κ) τ C) :=
  g.settings.map fun x => ⟨(g.name, x.key), x.V, x.read, g.part.comp x.field⟩

/-- Two groups with different names and parts. -/
structure Apart (g h : Group κ τ C) : Prop where
  name_ne : g.name ≠ h.name
  get_set_left : ∀ c v, h.part.get (g.part.set c v) = h.part.get c
  get_set_right : ∀ c v, g.part.get (h.part.set c v) = g.part.get c

end Group

def flatSettings (gs : List (Group κ τ C)) : List (KeyedSetting (κ × κ) τ C) :=
  gs.flatMap Group.flat

/-- Assign within the first group with the name, if there is one. -/
def assignIn (gs : List (Group κ τ C)) (name key : κ) (t : τ) (c : C) : C :=
  match gs.find? fun g => name = g.name with
  | some g => g.part.set c (assign g.settings key t (g.part.get c))
  | none => c

section assignIn
variable {gs : List (Group κ τ C)} {x : KeyedSetting (κ × κ) τ C} {name key : κ} {t : τ} {c : C}

theorem assignIn_cons (g : Group κ τ C) (gs : List (Group κ τ C)) :
    assignIn (g :: gs) name key t c =
      if name = g.name then g.part.set c (assign g.settings key t (g.part.get c))
      else assignIn gs name key t c := by
  unfold assignIn
  by_cases h : name = g.name <;> simp [h]

theorem assignIn_frame {g : Group κ τ C} (hx : x ∈ g.flat)
    (hapart : ∀ h ∈ gs, g.Apart h) : x.get (assignIn gs name key t c) = x.get c := by
  obtain ⟨y, -, rfl⟩ := List.mem_map.mp hx
  induction gs with
  | nil => rfl
  | cons h hs ih =>
    rw [assignIn_cons]
    split
    · show y.field.get (g.part.get (h.part.set c _)) = y.field.get (g.part.get c)
      rw [(hapart h List.mem_cons_self).get_set_right]
    · exact ih fun k hk => hapart k (List.mem_cons_of_mem h hk)

/-- What a text for a name and a key does to each field of the record. -/
theorem get_assignIn (hgs : gs.Pairwise Group.Apart)
    (hin : ∀ g ∈ gs, g.settings.Pairwise KeyedSetting.Apart) (hx : x ∈ flatSettings gs) :
    x.get (assignIn gs name key t c) =
      if (name, key) = x.key then (x.read t).getD (x.get c) else x.get c := by
  induction gs with
  | nil => cases hx
  | cons g gs ih =>
    obtain ⟨hapart, hrest⟩ := List.pairwise_cons.mp hgs
    rw [assignIn_cons]
    rcases List.mem_append.mp hx with hx' | hx'
    · obtain ⟨y, hy, rfl⟩ := List.mem_map.mp hx'
      have hget := get_assign (k := key) (t := t) (s := g.part.get c)
        (hin g List.mem_cons_self) hy
      split
      · next hname =>
        show y.field.get (g.part.get (g.part.set c _)) = _
        rw [g.part.get_set]
        refine hget.trans (if_congr ?_ rfl rfl)
        rw [Prod.ext_iff]
        exact ⟨fun hkey => ⟨hname, hkey⟩, fun hboth => hboth.2⟩
      · next hname =>
        rw [assignIn_frame hx' hapart, if_neg]
        intro heq
        exact hname (Prod.ext_iff.mp heq).1
    · obtain ⟨h, hh, hx''⟩ := List.mem_flatMap.mp hx'
      obtain ⟨y, hy, rfl⟩ := List.mem_map.mp hx''
      split
      · next hname =>
        have hne : (name, key) ≠ (h.name, y.key) := by
          intro heq
          exact (hapart h hh).name_ne (hname.symm.trans (Prod.ext_iff.mp heq).1)
        rw [if_neg hne]
        show y.field.get (h.part.get (g.part.set c _)) = y.field.get (h.part.get c)
        rw [(hapart h hh).get_set_left]
      · exact ih hrest (fun g' hg' => hin g' (List.mem_cons_of_mem g hg')) hx'

/-- A text that no setting with the name and the key reads changes nothing. -/
theorem assignIn_eq_self
    (h : ∀ x ∈ flatSettings gs, (name, key) = x.key → x.read t = none) :
    assignIn gs name key t c = c := by
  induction gs with
  | nil => rfl
  | cons g gs ih =>
    rw [assignIn_cons]
    split
    · next hname =>
      rw [assign_eq_self, g.part.set_get]
      intro y hy hkey
      have hmem : (⟨(g.name, y.key), y.V, y.read, g.part.comp y.field⟩ :
          KeyedSetting (κ × κ) τ C) ∈ flatSettings (g :: gs) :=
        List.mem_append_left _ (List.mem_map.mpr ⟨y, hy, rfl⟩)
      exact h _ hmem (Prod.ext hname hkey)
    · exact ih fun x hx => h x (List.mem_append_right _ hx)

omit [DecidableEq κ] in
/-- No name and key belongs to two settings. -/
theorem nodup_keys (hgs : gs.Pairwise Group.Apart)
    (hin : ∀ g ∈ gs, g.settings.Pairwise KeyedSetting.Apart) :
    ((flatSettings gs).map KeyedSetting.key).Nodup := by
  refine List.pairwise_map.mpr (List.pairwise_flatMap.mpr ⟨?_, ?_⟩)
  · intro g hg
    refine List.pairwise_map.mpr ((hin g hg).imp ?_)
    intro y z hapart heq
    exact hapart.key_ne (Prod.ext_iff.mp heq).2
  · refine hgs.imp ?_
    intro g h hapart x hx y hy heq
    obtain ⟨x', -, rfl⟩ := List.mem_map.mp hx
    obtain ⟨y', -, rfl⟩ := List.mem_map.mp hy
    exact hapart.name_ne (Prod.ext_iff.mp heq).1

end assignIn

/-! ### Many texts -/

/-- A text with the name of a group and a key. -/
structure Entry (κ τ : Type) where
  name : κ
  key : κ
  text : τ

def assignAll (gs : List (Group κ τ C)) (es : List (Entry κ τ)) (c : C) : C :=
  es.foldl (fun c e => assignIn gs e.name e.key e.text c) c

/-- The values that a setting reads of the entries for it, in order. -/
def KeyedSetting.values (x : KeyedSetting (κ × κ) τ C) (es : List (Entry κ τ)) : List x.V :=
  es.filterMap fun e => if (e.name, e.key) = x.key then x.read e.text else none

section assignAll
variable {gs : List (Group κ τ C)} {x : KeyedSetting (κ × κ) τ C}

/-- The last value read wins. -/
theorem get_assignAll (hgs : gs.Pairwise Group.Apart)
    (hin : ∀ g ∈ gs, g.settings.Pairwise KeyedSetting.Apart) (hx : x ∈ flatSettings gs)
    (es : List (Entry κ τ)) (c : C) :
    x.get (assignAll gs es c) = (x.values es).getLast?.getD (x.get c) := by
  induction es using List.reverseRecOn with
  | nil => rfl
  | append_singleton es e ih =>
    have hlast : assignAll gs (es ++ [e]) c =
        assignIn gs e.name e.key e.text (assignAll gs es c) := by
      unfold assignAll
      rw [List.foldl_append]
      rfl
    have hvalues : x.values (es ++ [e]) = x.values es ++
        (if (e.name, e.key) = x.key then x.read e.text else none).toList := by
      unfold KeyedSetting.values
      rw [List.filterMap_append]
      congr 1
    rw [hlast, get_assignIn hgs hin hx, ih, hvalues]
    split
    · cases x.read e.text with
      | none => rw [Option.toList_none, List.append_nil, Option.getD_none]
      | some v => rw [Option.toList_some, List.getLast?_concat, Option.getD_some, Option.getD_some]
    · rw [Option.toList_none, List.append_nil]

end assignAll

end FmSdrTuner
