import Mathlib.Data.List.Nodup
import Phantom.Keys.Rows
import Phantom.Lib.Protocol

namespace Phantom.Keys

open Phantom.Lib Phantom.Matrix Phantom.Accounts

variable {Raw : Type}

abbrev KeyWorld (Raw : Type) := World (Report Raw) (Tables Raw)

def KeyWorld.reports (world : KeyWorld Raw) : List (Report Raw) := world.trace.map Prod.snd

def Report.next (keys : List (UserDeviceId × OneTimeKeyId)) : Report Raw → List (UserDeviceId × OneTimeKeyId)
  | uploaded device kid _ => keys.insert (device, kid)
  | claimed device _ kid _ => keys.erase (device, kid)
  | found _ _ _ | counted _ _ => keys

variable (past : List (Report Raw))

def outstanding : List (UserDeviceId × OneTimeKeyId) := past.foldl Report.next []

def Report.Claims (report : Report Raw) (device : UserDeviceId) (kid : OneTimeKeyId) : Prop :=
  ∃ algorithm value, report = .claimed device algorithm kid value

def Report.Uploads (report : Report Raw) (device : UserDeviceId) (kid : OneTimeKeyId) : Prop :=
  ∃ value, report = .uploaded device kid value

def Report.Sight : Report Raw → Prop
  | found _ _ _ | counted _ _ => True
  | uploaded _ _ _ | claimed _ _ _ _ => False

def Latest (device : UserDeviceId) (kid : OneTimeKeyId) (value : Raw) : Prop :=
  ∃ before since, past = before ++ .uploaded device kid value :: since ∧
    ∀ report ∈ since, ¬ report.Claims device kid ∧ ¬ report.Uploads device kid

def Found (device : UserDeviceId) (kid : OneTimeKeyId) (value : Raw) : Prop :=
  ∃ before since, past = before ++ .found device kid value :: since ∧ Latest before device kid value ∧
    (∀ report ∈ since, ¬ report.Claims device kid) ∧
    ((∀ report ∈ since, ¬ report.Uploads device kid) → Latest past device kid value)

/-- A claim hands out a key of the device as it was last uploaded when the claim found it, and no claim since has
    handed it
    out; the key is of the algorithm asked for unless that has a colon. A count tells how many keys are outstanding. -/
def Right : Report Raw → Prop
  | .uploaded _ _ _ => True
  | .found device kid value => Latest past device kid value
  | .claimed device algorithm kid value =>
    Found past device kid value ∧ (kid.algorithm = algorithm ↔ ':' ∉ algorithm.asStr.toList)
  | .counted device counts => ∀ algorithm, counts.get algorithm =
      counted ((outstanding past).countP fun key => decide (key.1 = device ∧ key.2.algorithm = algorithm))

def Answered (trace : List (ℕ × Report Raw)) (job : ℕ) : Call Raw → Answer Raw → Prop
  | .add device kid value, .added => (job, .uploaded device kid value) ∈ trace
  | .add _ _ _, .noMetadata => True
  | .take device algorithm, .taken kid value => (job, .claimed device algorithm kid value) ∈ trace
  | .take _ _, .notFound => True
  | .count device, .counts counts => (job, .counted device counts) ∈ trace
  | _, _ => False

/-- The rows are those of the outstanding keys, with the values uploaded, and all that was reported is right. -/
structure Tidy (world : KeyWorld Raw) : Prop where
  rows : ∀ key, key ∈ world.store.onetimekeyidOnetimekeys.keys ↔
    key ∈ (outstanding (KeyWorld.reports world)).map fun key => oneTimeKeyRow key.1 key.2
  values : ∀ device kid value, world.store.onetimekeyidOnetimekeys.get (oneTimeKeyRow device kid) = some value →
    Latest (KeyWorld.reports world) device kid value
  right : ∀ past report later, KeyWorld.reports world = past ++ report :: later → Right past report

section Steps

variable {w : KeyWorld Raw} {past : List (Report Raw)} {report : Report Raw} {dev : UserDeviceId} {kid : OneTimeKeyId}
  {value : Raw} {job : ℕ} {t : Tables Raw}
variable {more : List (Report Raw)}

theorem reports_after {events : List (Report Raw)} :
    KeyWorld.reports (w.after job events t) = KeyWorld.reports w ++ events := by
  simp [KeyWorld.reports]

theorem outstanding_concat : outstanding (past ++ [report]) = report.next (outstanding past) := by
  rw [outstanding, List.foldl_append, ← outstanding]
  rfl

theorem outstanding_nodup (past : List (Report Raw)) : (outstanding past).Nodup := by
  induction past using List.reverseRecOn with
  | nil => exact List.nodup_nil
  | append_singleton past report ih =>
    rw [outstanding_concat]
    cases report with
    | uploaded dev kid value => exact List.Nodup.insert ih
    | claimed dev algorithm kid value => exact ih.erase _
    | found dev kid value | counted dev counts => exact ih

theorem Report.Sight.next {keys : List (UserDeviceId × OneTimeKeyId)} (seen : report.Sight) :
    report.next keys = keys := by
  cases report with
  | found dev kid value | counted dev counts => rfl
  | uploaded dev kid value | claimed dev algorithm kid value => cases seen

theorem Report.Sight.unclaimed (seen : report.Sight) : ¬ report.Claims dev kid := by
  rintro ⟨_, _, rfl⟩
  cases seen

theorem Report.Sight.not_upload (seen : report.Sight) : ¬ report.Uploads dev kid := by
  rintro ⟨_, rfl⟩
  cases seen

theorem latest_upload : Latest (past ++ [.uploaded dev kid value]) dev kid value :=
  ⟨past, [], rfl, fun _ mem => absurd mem List.not_mem_nil⟩

section

variable (latest : Latest past dev kid value)
include latest

theorem Latest.append (elsewhere : ∀ report ∈ more, ¬ report.Claims dev kid ∧ ¬ report.Uploads dev kid) :
    Latest (past ++ more) dev kid value := by
  obtain ⟨before, since, rfl, free⟩ := latest
  refine ⟨before, since ++ more, by simp, ?_⟩
  grind

theorem Latest.concat (unclaimed : ¬ report.Claims dev kid) (same : ¬ report.Uploads dev kid) :
    Latest (past ++ [report]) dev kid value := by
  grind [Latest.append]

theorem Latest.found : Found (past ++ [.found dev kid value]) dev kid value := by
  have seen : (Report.found dev kid value).Sight := True.intro
  exact ⟨past, [], rfl, latest, fun _ mem => absurd mem List.not_mem_nil,
    fun _ => latest.concat seen.unclaimed seen.not_upload⟩

end

theorem Found.append (found : Found past dev kid value)
    (unclaimed : ∀ report ∈ more, ¬ report.Claims dev kid) : Found (past ++ more) dev kid value := by
  obtain ⟨before, since, split, latest, free, still⟩ := found
  refine ⟨before, since ++ more, by simp [split], latest, ?_, ?_⟩
  · grind
  · grind [Latest.append]

theorem Answered.mono {trace longer : List (ℕ × Report Raw)} {call : Call Raw} {answer : Answer Raw}
    (answered : Answered trace job call answer) (grown : trace ⊆ longer) : Answered longer job call answer := by
  unfold Answered at answered ⊢
  grind

theorem right_concat (right : ∀ past report later, KeyWorld.reports w = past ++ report :: later → Right past report)
    (here : Right (KeyWorld.reports w) report) :
    ∀ past other later, KeyWorld.reports (w.after job [report] t) = past ++ other :: later → Right past other := by
  intro past other later split
  rw [reports_after] at split
  rcases List.eq_nil_or_concat later with rfl | ⟨front, last, rfl⟩
  · grind [List.append_inj']
  · grind [List.append_inj']

section

variable (tidy : Tidy w)
include tidy

theorem Tidy.unseen (rows : t.onetimekeyidOnetimekeys = w.store.onetimekeyidOnetimekeys) :
    Tidy (w.after job [] t) where
  rows := by
    simp only [reports_after, List.append_nil, World.after_store, rows]
    exact tidy.rows
  values := by
    simp only [reports_after, List.append_nil, World.after_store, rows]
    exact tidy.values
  right := by
    simp only [reports_after, List.append_nil]
    exact tidy.right

theorem Tidy.sight (right : Right (KeyWorld.reports w) report) (seen : report.Sight) :
    Tidy (w.after job [report] w.store) where
  rows := by
    rw [reports_after, outstanding_concat, seen.next]
    exact tidy.rows
  values dev kid found present := by
    rw [reports_after]
    exact (tidy.values dev kid found present).concat seen.unclaimed seen.not_upload
  right := right_concat tidy.right right

theorem Tidy.upload :
    Tidy (w.after job [.uploaded dev kid value] (w.store.putRow (oneTimeKeyRow dev kid) value)) where
  rows key := by
    rw [reports_after, outstanding_concat, ← BTreeMap.get_isSome]
    simp only [World.after_store, Tables.putRow, BTreeMap.get_insert_eq, Report.next, List.mem_map, List.mem_insert_iff]
    grind [Tidy.rows, BTreeMap.get_isSome]
  values other another found present := by
    rw [reports_after]
    simp only [World.after_store, Tables.putRow, BTreeMap.get_insert_eq] at present
    split at present
    · rename_i same
      have keys : (other, another) = (dev, kid) := oneTimeKeyRow_injective same
      cases keys
      cases present
      exact latest_upload
    · rename_i ne
      apply (tidy.values other another found present).concat
      · rintro ⟨_, _, claims⟩
        cases claims
      · rintro ⟨_, uploads⟩
        cases uploads
        exact ne rfl
  right := right_concat tidy.right True.intro

theorem Tidy.claim {algorithm : OneTimeKeyAlgorithm} (found : Found (KeyWorld.reports w) dev kid value)
    (fits : kid.algorithm = algorithm ↔ ':' ∉ algorithm.asStr.toList) :
    Tidy (w.after job [.claimed dev algorithm kid value] (w.store.removeRow (oneTimeKeyRow dev kid))) where
  rows key := by
    rw [reports_after, outstanding_concat, ← BTreeMap.get_isSome]
    simp only [World.after_store, Tables.removeRow, BTreeMap.get_erase_eq, Report.next, List.mem_map,
      (outstanding_nodup _).mem_erase_iff]
    have before := tidy.rows key
    rw [← BTreeMap.get_isSome, List.mem_map] at before
    by_cases same : key = oneTimeKeyRow dev kid
    · rw [if_pos same]
      apply iff_of_false Bool.false_ne_true
      rintro ⟨found, ⟨ne, _⟩, row⟩
      exact ne (oneTimeKeyRow_injective (row.trans same))
    · grind
  values other another held present := by
    rw [reports_after]
    simp only [World.after_store, Tables.removeRow, BTreeMap.get_erase_eq] at present
    split at present
    · cases present
    · rename_i ne
      apply (tidy.values other another held present).concat
      · rintro ⟨_, _, claims⟩
        cases claims
        exact ne rfl
      · rintro ⟨_, uploads⟩
        cases uploads
  right := right_concat tidy.right ⟨found, fits⟩

theorem Tidy.perm : w.store.onetimekeyidOnetimekeys.keys.Perm
    ((outstanding (KeyWorld.reports w)).map fun key => oneTimeKeyRow key.1 key.2) := by
  apply (List.perm_ext_iff_of_nodup ?_ ?_).mpr tidy.rows
  · exact (List.pairwise_map.mpr w.store.onetimekeyidOnetimekeys.sorted).imp fun before => ne_of_lt before
  · exact List.Nodup.map oneTimeKeyRow_injective (outstanding_nodup _)

theorem Tidy.texts (dev : UserDeviceId) :
    ((w.store.rawStream (deviceStart dev)).filterMap fun row => deviceKeyId row.1).Perm
      (((outstanding (KeyWorld.reports w)).filter fun key => key.1 = dev).map fun key => key.2.escaped) := by
  have keys : (w.store.rawStream (deviceStart dev)).filterMap (fun row => deviceKeyId row.1) =
      (w.store.onetimekeyidOnetimekeys.keys.filter
      (fun key => decide (deviceStart dev <+: key))).filterMap deviceKeyId := by
    rw [Tables.rawStream, BTreeMap.takeWhile_seek_isPrefix, BTreeMap.keys, List.filter_map, List.filterMap_map]
    rfl
  have read : ((outstanding (KeyWorld.reports w)).map fun key => oneTimeKeyRow key.1 key.2).filter
      (fun key => decide (deviceStart dev <+: key)) = ((outstanding (KeyWorld.reports w)).filter
        (fun key => key.1 = dev)).map (fun key => oneTimeKeyRow key.1 key.2) := by
    rw [List.filter_map]
    congr 2
    grind [deviceStart_isPrefix_iff]
  have texts := (tidy.perm.filter fun key => decide (deviceStart dev <+: key)).filterMap deviceKeyId
  rw [read, List.filterMap_map] at texts
  rw [keys]
  have each : deviceKeyId ∘ (fun key : UserDeviceId × OneTimeKeyId => oneTimeKeyRow key.1 key.2) =
      some ∘ (fun key => key.2.escaped) := by
    funext key
    exact deviceKeyId_oneTimeKeyRow
  rwa [each, List.filterMap_eq_map] at texts

theorem Tidy.counts (dev : UserDeviceId) :
    ∃ counts, algorithmCounts (w.store.rawStream (deviceStart dev)) = some counts ∧
      Right (KeyWorld.reports w) (.counted dev counts) := by
  have texts := tidy.texts dev
  have ids : ∀ text ∈ (w.store.rawStream (deviceStart dev)).filterMap fun row => deviceKeyId row.1,
      (keyAlgorithm text).isSome := by
    grind [keyAlgorithm_escaped]
  have empty : ∀ algorithm, (BTreeMap.empty : BTreeMap OneTimeKeyAlgorithm ℕ).get algorithm = counted 0 := fun _ => rfl
  obtain ⟨counts, folded, numbers⟩ := foldlM_countKey ids empty
  refine ⟨counts, folded, ?_⟩
  intro algorithm
  rw [numbers, Nat.zero_add, texts.countP_eq, List.countP_map, List.countP_filter]
  grind [keyAlgorithm_escaped]

end

end Steps

end Phantom.Keys
