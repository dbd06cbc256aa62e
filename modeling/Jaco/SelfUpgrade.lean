import Jaco.Entities

namespace Jaco.SelfUpgrade

inductive Tool where
  | jaco | jacod
  deriving DecidableEq

def Tool.base : Tool → String
  | .jaco => "jaco"
  | .jacod => "jacod"

structure Slot where
  bin : Option Bytes
  prev : Option Bytes := none
  upgrading : Option Bytes := none

def Slot.rename (s : Slot) : Slot := { s with bin := s.upgrading, upgrading := none }

def Slot.restore (s : Slot) : Slot := if s.prev = none then s else { s with bin := s.prev, prev := none }

abbrev Dir := Tool → Slot

def Dir.change (d : Dir) (t : Tool) (f : Slot → Slot) : Dir := Function.update d t (f (d t))

@[simp] theorem Dir.change_self (d : Dir) (t : Tool) (f : Slot → Slot) : d.change t f t = f (d t) :=
  Function.update_self t _ d

@[simp] theorem Dir.change_of_ne (d : Dir) {t u : Tool} (h : u ≠ t) (f : Slot → Slot) : d.change t f u = d u :=
  Function.update_of_ne h _ d

inductive Copy where
  | done
  | failed (err : String) (left : Option Bytes)

structure Outcomes where
  mkdirTemp : Option String := none
  fetchTarball : Option String := none
  fetchChecksums : Option String := none
  fetchSignature : Option String := none
  verify : Option String := none
  extract : Tool → Option String := fun _ => none
  extracted : Tool → Bytes
  save : Tool → Copy := fun _ => .done
  /-- The tool the iteration over the staging map visits first. -/
  first : Tool := .jaco
  stage : Tool → Copy := fun _ => .done
  chmod : Tool → Option String := fun _ => none
  rename : Tool → Option String := fun _ => none
  restart : Option String := none

abbrev Result := Option String × Dir

def andThen (r : Result) (next : Dir → Result) : Result :=
  match r.1 with
  | some err => (some err, r.2)
  | none => next r.2

section Run

variable (o : Outcomes)

def preflight (url : String) : Option String :=
  (if url = "" then some "self-upgrade: --url is required" else none)
    |>.or o.mkdirTemp
    |>.or (o.fetchTarball.map ("fetch tarball: " ++ ·))
    |>.or (o.fetchChecksums.map ("fetch checksums: " ++ ·))
    |>.or (o.fetchSignature.map ("fetch signature: " ++ ·))
    |>.or o.verify
    |>.or ((o.extract .jaco).map ("extract jaco: " ++ ·))
    |>.or ((o.extract .jacod).map ("extract jacod: " ++ ·))

def savePrevious (t : Tool) (d : Dir) : Result :=
  match (d t).bin, o.save t with
  | none, _ => (none, d)
  | some body, .done => (none, d.change t ({ · with prev := some body }))
  | some _, .failed err left =>
    (some ("save previous " ++ t.base ++ ": " ++ err), d.change t ({ · with prev := left }))

def stageNew (t : Tool) (d : Dir) : Result :=
  match o.stage t with
  | .failed err left => (some ("stage " ++ t.base ++ ".upgrading: " ++ err), d.change t ({ · with upgrading := left }))
  | .done => ((o.chmod t).map (("chmod " ++ t.base ++ ".upgrading: ") ++ ·),
      d.change t ({ · with upgrading := some (o.extracted t) }))

def prepare (d : Dir) : Result :=
  andThen (andThen (andThen (savePrevious o .jaco d) (savePrevious o .jacod)) (stageNew o o.first))
    (stageNew o (if o.first = .jaco then .jacod else .jaco))

def swap (d : Dir) : Result :=
  match o.rename .jaco with
  | some err => (some ("rename jaco: " ++ err), d)
  | none =>
    let d := d.change .jaco Slot.rename
    match o.rename .jacod with
    | some err => (some ("rename jacod (jaco was restored): " ++ err), d.change .jaco Slot.restore)
    | none =>
      let d := d.change .jacod Slot.rename
      match o.restart with
      | some err => (some ("post-upgrade health check failed; rolled back: " ++ err),
          (d.change .jaco Slot.restore).change .jacod Slot.restore)
      | none => (none, d)

def runSelfUpgrade (url : String) (d : Dir) : Result :=
  match preflight o url with
  | some err => (some err, d)
  | none => andThen (prepare o d) (swap o)

end Run

variable {r : Result} {next : Dir → Result}

theorem andThen_eq_none : (andThen r next).1 = none ↔ r.1 = none ∧ (next r.2).1 = none := by
  unfold andThen
  cases h : r.1 <;> simp

theorem andThen_dir (h : r.1 = none) : (andThen r next).2 = (next r.2).2 := by
  simp only [andThen, h]

theorem andThen_keeps {P : Dir → Prop} (hr : P r.2) (hnext : ∀ d, P d → P (next d).2) : P (andThen r next).2 := by
  unfold andThen
  cases h : r.1 with
  | none => exact hnext r.2 hr
  | some err => exact hr

section Prepare

variable (o : Outcomes) (t u : Tool) (d : Dir)

theorem savePrevious_bin : ((savePrevious o t d).2 u).bin = (d u).bin := by
  by_cases h : u = t
  · subst h
    unfold savePrevious
    split <;> simp
  · unfold savePrevious
    split <;> simp [h]

theorem savePrevious_of_ne {u : Tool} (h : u ≠ t) : (savePrevious o t d).2 u = d u := by
  unfold savePrevious
  split <;> simp [h]

theorem savePrevious_eq_none : (savePrevious o t d).1 = none ↔ ((d t).bin ≠ none → o.save t = .done) := by
  unfold savePrevious
  split <;> simp_all

theorem savePrevious_prev (h : (savePrevious o t d).1 = none) (hbin : (d t).bin ≠ none) :
    ((savePrevious o t d).2 t).prev = (d t).bin := by
  unfold savePrevious at h ⊢
  split at h <;> simp_all

theorem stageNew_keeps : ((stageNew o t d).2 u).bin = (d u).bin ∧ ((stageNew o t d).2 u).prev = (d u).prev := by
  by_cases h : u = t
  · subst h
    unfold stageNew
    split <;> simp
  · unfold stageNew
    split <;> simp [h]

theorem stageNew_of_ne {u : Tool} (h : u ≠ t) : (stageNew o t d).2 u = d u := by
  unfold stageNew
  split <;> simp [h]

theorem stageNew_eq_none : (stageNew o t d).1 = none ↔ o.stage t = .done ∧ o.chmod t = none := by
  unfold stageNew
  split <;> simp_all

theorem stageNew_upgrading (h : (stageNew o t d).1 = none) :
    ((stageNew o t d).2 t).upgrading = some (o.extracted t) := by
  simp [stageNew, ((stageNew_eq_none o t d).1 h).1]

theorem prepare_bin : ((prepare o d).2 u).bin = (d u).bin := by
  have hsaved : ((andThen (savePrevious o .jaco d) (savePrevious o .jacod)).2 u).bin = (d u).bin :=
    andThen_keeps (P := fun d' => (d' u).bin = (d u).bin) (savePrevious_bin o .jaco u d)
      (fun d' hd => (savePrevious_bin o .jacod u d').trans hd)
  exact andThen_keeps (andThen_keeps hsaved (fun d' hd => (stageNew_keeps o _ u d').1.trans hd))
    (fun d' hd => (stageNew_keeps o _ u d').1.trans hd)

def Prepared : Prop := (∀ t, (d t).bin ≠ none → o.save t = .done) ∧ ∀ t, o.stage t = .done ∧ o.chmod t = none

theorem Tool.forall {P : Tool → Prop} : (∀ t, P t) ↔ P .jaco ∧ P .jacod :=
  ⟨fun h => ⟨h .jaco, h .jacod⟩, fun h t => match t with | .jaco => h.1 | .jacod => h.2⟩

theorem prepare_eq_none_iff : (prepare o d).1 = none ↔ Prepared o d := by
  simp only [prepare, andThen_eq_none, savePrevious_eq_none, stageNew_eq_none, savePrevious_bin, Prepared, Tool.forall]
  cases o.first <;> simp only [reduceCtorEq, if_true, if_false] <;> tauto

theorem prepared_slot (h : (prepare o d).1 = none) :
    ((prepare o d).2 u).upgrading ≠ none ∧ ((d u).bin ≠ none → ((prepare o d).2 u).prev = (d u).bin) := by
  simp only [prepare, andThen_eq_none] at h
  obtain ⟨⟨⟨hjaco, hjacod⟩, hfirst⟩, hsecond⟩ := h
  rw [prepare, andThen_dir (by simp only [andThen_eq_none]; exact ⟨⟨hjaco, hjacod⟩, hfirst⟩)]
  rw [andThen_dir (by rw [andThen_eq_none]; exact ⟨hjaco, hjacod⟩), andThen_dir hjaco] at hsecond ⊢
  rw [andThen_dir hjaco] at hfirst
  constructor
  · by_cases hu : u = if o.first = .jaco then .jacod else .jaco
    · rw [hu, stageNew_upgrading _ _ _ hsecond]
      exact Option.some_ne_none _
    · have hfirst' : u = o.first := by
        revert hu
        cases u <;> cases o.first <;> decide
      rw [stageNew_of_ne _ _ _ hu, hfirst', stageNew_upgrading _ _ _ hfirst]
      exact Option.some_ne_none _
  · intro hbin
    rw [(stageNew_keeps _ _ _ _).2, (stageNew_keeps _ _ _ _).2]
    cases u with
    | jaco =>
      rw [savePrevious_of_ne _ _ _ (by decide)]
      exact savePrevious_prev o .jaco d hjaco hbin
    | jacod =>
      rw [← savePrevious_bin o .jaco .jacod d] at hbin ⊢
      exact savePrevious_prev o .jacod _ hjacod hbin

end Prepare

theorem restore_rename_bin {s : Slot} {bin : Option Bytes} (hstaged : s.upgrading ≠ none)
    (hprev : bin ≠ none → s.prev = bin) : s.rename.restore.bin = bin ↔ bin ≠ none := by
  by_cases hbin : bin = none
  · subst hbin
    refine iff_of_false (fun h => ?_) (fun h => h rfl)
    unfold Slot.restore Slot.rename at h
    split at h
    · exact hstaged h
    · contradiction
  · have hsome : s.rename.prev ≠ none := fun h => hbin ((hprev hbin).symm.trans h)
    rw [Slot.restore, if_neg hsome]
    exact iff_of_true (hprev hbin) hbin

/-- Where the second rename or the restart fails, the binaries to be taken back were installed before. -/
def Restorable (o : Outcomes) (url : String) (d : Dir) : Prop :=
  preflight o url = none → Prepared o d → o.rename .jaco = none →
    (o.rename .jacod ≠ none → (d .jaco).bin ≠ none) ∧
      (o.rename .jacod = none → o.restart ≠ none → ∀ t, (d t).bin ≠ none)

theorem swap_keeps_iff (o : Outcomes) {d d' : Dir} (hbin : ∀ t, (d' t).bin = (d t).bin)
    (hslot : ∀ t, (d' t).upgrading ≠ none ∧ ((d t).bin ≠ none → (d' t).prev = (d t).bin)) :
    ((swap o d').1 ≠ none → ∀ t, ((swap o d').2 t).bin = (d t).bin) ↔
      (o.rename .jaco = none → (o.rename .jacod ≠ none → (d .jaco).bin ≠ none) ∧
        (o.rename .jacod = none → o.restart ≠ none → ∀ t, (d t).bin ≠ none)) := by
  have hback := fun t => restore_rename_bin (hslot t).1 (hslot t).2
  unfold swap
  cases o.rename .jaco with
  | some err => simp [hbin]
  | none =>
    cases o.rename .jacod with
    | some err => simp [Tool.forall, hbin, hback]
    | none =>
      cases o.restart with
      | some err => simp [Tool.forall, hback]
      | none => simp

theorem failed_upgrade_keeps_iff (o : Outcomes) (url : String) (d : Dir) :
    ((runSelfUpgrade o url d).1 ≠ none → ∀ t, ((runSelfUpgrade o url d).2 t).bin = (d t).bin) ↔ Restorable o url d := by
  unfold runSelfUpgrade Restorable
  cases hpre : preflight o url with
  | some err => simp
  | none =>
    by_cases hprepared : (prepare o d).1 = none
    · have hswap := swap_keeps_iff o (prepare_bin o · d) (prepared_slot o · d hprepared)
      simp only [andThen, hprepared, (prepare_eq_none_iff o d).1 hprepared, true_implies]
      exact hswap
    · have hkept : ∀ t, ((andThen (prepare o d) (swap o)).2 t).bin = (d t).bin := by
        obtain ⟨err, herr⟩ := Option.ne_none_iff_exists'.1 hprepared
        simp only [andThen, herr]
        exact (prepare_bin o · d)
      exact iff_of_true (fun _ => hkept) (fun _ h => absurd ((prepare_eq_none_iff o d).2 h) hprepared)

theorem first_install_not_taken_back :
    let o : Outcomes := {
      extracted := fun _ => [2], rename := fun t => if t = .jacod then some "text file busy" else none }
    let fresh : Dir := fun t => if t = .jaco then ⟨none, none, none⟩ else ⟨some [1], none, none⟩
    let stale : Dir := fun t => if t = .jaco then ⟨none, some [0], none⟩ else ⟨some [1], none, none⟩
    let url := "https://example.com/jaco-v2-linux-amd64.tar.gz"
    ((runSelfUpgrade o url fresh).1 = some "rename jacod (jaco was restored): text file busy" ∧
        ((runSelfUpgrade o url fresh).2 .jaco).bin = some [2]) ∧
      ((runSelfUpgrade o url stale).1 = some "rename jacod (jaco was restored): text file busy" ∧
        ((runSelfUpgrade o url stale).2 .jaco).bin = some [0]) := by
  decide +kernel

end Jaco.SelfUpgrade
