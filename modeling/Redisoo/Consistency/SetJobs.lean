import Redisoo.Safety.SlotProtocol
import Redisoo.Server.Entries

/-!
# Values and results of the jobs

The SET job in the slot carries the value of its candidate, the working thread
writes that value, and the result a thread posts is the one it recorded.
-/

namespace Redisoo

open Foundation

variable {n : Nat}

/-!
# The value of an entry
-/

variable {info : BackendInfo} {ch ch' : Channel n} {phase phase' : HandOff.Phase} {dk : Fin n × Sds}

theorem Joins.setValue_new {value : Sds} {ttl : Int} {waiter : Option ClientId}
    {old : Option BackendInfo} (h : Joins .set value ttl waiter old info) :
    info.setValue = value := by
  cases h with
  | new => rfl
  | old _ hvalue => exact hvalue rfl

theorem ChannelMove.setValue {m : Mode} {info' : BackendInfo}
    (hmove : ChannelMove m ch phase ch' phase') (hlookup : ch.candidates.lookup dk = some info)
    (hlookup' : ch'.candidates.lookup dk = some info') : info'.setValue = info.setValue := by
  have hsame : ch'.candidates = ch.candidates -> info'.setValue = info.setValue := by
    intro hcand
    rw [hcand, hlookup] at hlookup'
    cases hlookup'
    rfl
  cases hmove with
  | release victims =>
    rw [lookup_releaseAll, hlookup] at hlookup'
    cases hlookup'
    exact releaseAll_setValue victims info
  | enqueue dk' value ttl waiter new ch' hjoins hcreate =>
    rw [hcreate.frame.left] at hlookup'
    by_cases hdk : dk = dk'
    · subst hdk
      rw [hlookup] at hjoins
      change (ch.candidates.insert dk new).lookup dk = some info' at hlookup'
      rw [AList.lookup_insert] at hlookup'
      cases hlookup'
      exact hjoins.setValue_old
    · change (ch.candidates.insert dk' new).lookup dk = some info' at hlookup'
      rw [AList.lookup_insert_ne hdk, hlookup] at hlookup'
      cases hlookup'
      rfl
  | begin d key info'' _ _ _ _ _ _ =>
    change (ch.candidates.erase (d, key.bytes)).lookup dk = some info' at hlookup'
    by_cases hdk : dk = (d, key.bytes)
    · rw [hdk, AList.lookup_erase] at hlookup'
      cases hlookup'
    · rw [AList.lookup_erase_ne hdk, hlookup] at hlookup'
      cases hlookup'
      rfl
  | finish ch' _ hcreate => exact hsame hcreate.frame.left
  | _ => exact hsame rfl

/-!
# The value of the job
-/

structure Channel.Carries (ch : Channel n) (phase : HandOff.Phase) : Prop where
  job : phase ≠ .clearing -> forall d key, ch.job.dbid = some d ->
    ch.job.key = some key -> exists info,
      ch.candidates.lookup (d, key.bytes) = some info ∧
        ch.job.val = some info.setValue
  worker : forall d key val result, ch.worker = .executed d key val result ->
    val = ch.job.val

theorem carries_init : (Channel.init : Channel n).Carries .idle := by
  constructor
  · intro _ d key hd _
    cases hd
  · intro d key val result hworker
    cases hworker

theorem carries_created (ch : Channel n) {d : Fin n} {k : Sds} {addr : Nat}
    (hlookup : ch.candidates.lookup (d, k) = some info) {d' : Fin n} {key : KeyPtr}
    (hd : (ch.job.create .set d { addr := addr, bytes := k } info).dbid = some d')
    (hk : (ch.job.create .set d { addr := addr, bytes := k } info).key = some key) :
    exists info', ch.candidates.lookup (d', key.bytes) = some info' ∧
      (ch.job.create .set d { addr := addr, bytes := k } info).val = some info'.setValue := by
  change some d = some d' at hd
  change some _ = some key at hk
  cases hd
  cases hk
  exact ⟨info, hlookup, rfl⟩

theorem ChannelMove.carries (hmove : ChannelMove .set ch phase ch' phase')
    (hsound : ch.Sound .set phase) (h : ch.Carries phase) : ch'.Carries phase' := by
  have hidle : ch.job.key = none ->
      forall d key val result, ch.worker ≠ .executed d key val result := by
    intro hnone d key val result hworker
    have hkey := (hsound.working (j := (d, key)) (Or.inr (by rw [hworker]; rfl))).right.left
    rw [hnone] at hkey
    cases hkey
  cases hmove with
  | same => exact h
  | release victims =>
    rcases releaseAll_frame victims ch with ⟨hjob, hworker, _⟩
    constructor
    · intro hphase d key hd hk
      rw [hjob] at hd hk ⊢
      rcases h.job hphase d key hd hk with ⟨info, hlookup, hval⟩
      refine ⟨victims.foldr BackendInfo.release info, ?_, ?_⟩
      · rw [lookup_releaseAll, hlookup]
        rfl
      · rw [releaseAll_setValue]
        exact hval
    · rw [hjob, hworker]
      exact h.worker
  | enqueue dk value ttl waiter info ch' hjoins hcreate =>
    have hsame : forall d key, phase ≠ .clearing -> ch.job.dbid = some d ->
        ch.job.key = some key -> exists info',
          (ch.candidates.insert dk info).lookup (d, key.bytes) = some info' ∧
            ch.job.val = some info'.setValue := by
      intro d key hphase hd hk
      rcases h.job hphase d key hd hk with ⟨old, hlookup, hval⟩
      by_cases hdk : (d, key.bytes) = dk
      · rw [← hdk, hlookup] at hjoins
        refine ⟨info, by rw [hdk, AList.lookup_insert], ?_⟩
        rw [hjoins.setValue_old]
        exact hval
      · exact ⟨old, by rw [AList.lookup_insert_ne hdk, hlookup], hval⟩
    cases hcreate with
    | busy _ _ | empty _ _ =>
      exact ⟨fun hphase d key hd hk => hsame d key hphase hd hk, h.worker⟩
    | job d k info' hkey _ hlookup =>
      constructor
      · intro _ d' key hd hk
        exact carries_created { ch with candidates := ch.candidates.insert dk info } hlookup hd hk
      · intro d' key val result hworker
        exact absurd hworker (hidle hkey d' key val result)
  | take d key _ _ _ _ =>
    refine ⟨h.job, ?_⟩
    intro d' key' val result hworker
    cases hworker
  | execute d key val result _ hval =>
    refine ⟨h.job, ?_⟩
    intro d' key' val' result' hworker
    cases hworker
    exact hval rfl
  | post d key val result hworker _ _ =>
    refine ⟨h.job, ?_⟩
    intro d' key' val' result' hworker'
    cases hworker'
  | signal _ =>
    refine ⟨h.job, ?_⟩
    intro d' key' val' result' hworker
    cases hworker
  | begin d key info _ _ _ _ _ _ =>
    exact ⟨fun hphase => absurd rfl hphase, h.worker⟩
  | finish ch' hclear hcreate =>
    subst hclear
    have hpoll : forall d key val result, ch.worker ≠ .executed d key val result := by
      intro d key val result hworker
      exact (hsound.working (j := (d, key)) (Or.inr (by rw [hworker]; rfl))).2.2.2.2 rfl
    cases hcreate with
    | empty _ _ =>
      constructor
      · intro _ d key hd _
        cases hd
      · intro d key val result hworker
        exact absurd hworker (hpoll d key val result)
    | job d k info _ _ hlookup =>
      constructor
      · intro _ d' key hd hk
        exact carries_created { ch with job := Job.zero } hlookup hd hk
      · intro d' key val result hworker
        exact absurd hworker (hpoll d' key val result)
    | busy hcheck _ => cases hcheck
  | drain hdrain _ =>
    refine ⟨fun _ => h.job ?_, h.worker⟩
    rw [hdrain]
    exact HandOff.Phase.noConfusion

/-!
# The result of the operation
-/

def Channel.Result (ch : Channel n) (phase : HandOff.Phase) (dk : Fin n × Sds)
    (result : Bool) : Prop :=
  (exists d key val, ch.worker = .executed d key val result ∧
    (d, key.bytes) = dk) ∨
    (phase ≠ .clearing ∧ ch.job.syncResult = result ∧
      exists j, ch.job.returned = some j ∧ jobKey j = dk)

theorem Channel.Result.executed {result : Bool} (h : ch.Result phase dk result) :
    ch.Executed phase dk := by
  rcases h with ⟨d, key, val, hworker, hdk⟩ | ⟨hphase, _, j, hj, hdk⟩
  · exact Or.inl ⟨(d, key), by rw [hworker]; rfl, hdk⟩
  · exact Or.inr ⟨hphase, j, hj, hdk⟩

theorem ChannelMove.result {m : Mode} {result : Bool} (hmove : ChannelMove m ch phase ch' phase')
    (hm : m ≠ .get) (hsound : ch.Sound m phase) (h : ch'.Result phase' dk result) :
    ch.Result phase dk result ∨
      (exists d key val, ch.worker = .running d key ∧
        ch'.worker = .executed d key val result ∧ (d, key.bytes) = dk) := by
  cases hmove with
  | same => exact Or.inl h
  | release victims =>
    rcases releaseAll_frame victims ch with ⟨hjob, hworker, _⟩
    unfold Channel.Result at h
    rw [hjob, hworker] at h
    exact Or.inl h
  | enqueue dk' value ttl waiter info ch' _ hcreate =>
    cases hcreate with
    | busy _ _ => exact Or.inl h
    | empty _ _ => exact Or.inl h
    | job d k info' _ hret _ =>
      rcases h with hworker | ⟨_, _, j, hj, _⟩
      · exact Or.inl (Or.inl hworker)
      · rw [returned_of_none] at hj
        · cases hj
        · exact (Job.create_fields m d _ info' ch.job).right.right.trans hret
  | take d key _ _ _ _ | signal _ =>
    rcases h with ⟨d', key', val, hworker, _⟩ | hret
    · cases hworker
    · exact Or.inl (Or.inr hret)
  | execute d key val result' hworker _ =>
    rcases h with ⟨d', key', val', hworker', hdk⟩ | hret
    · cases hworker'
      exact Or.inr ⟨d, key, val, hworker, rfl, hdk⟩
    · exact Or.inl (Or.inr hret)
  | post d key val result' hworker hk _ =>
    rcases h with ⟨d', key', val', hworker', _⟩ | ⟨_, hresult, j, hj, hdk⟩
    · cases hworker'
    have hd := (hsound.working (j := (d, key)) (Or.inr (by rw [hworker]; rfl))).left
    rcases Job.post_fields m key val result' ch.job with ⟨hd', _, hret'⟩
    have hret : (ch.job.post m key val result').returned = some (d, key) :=
      Job.returned_eq_some.mpr ⟨hd'.trans hd, hret'⟩
    change (ch.job.post m key val result').returned = some j at hj
    rw [hret] at hj
    cases hj
    have hresult' : result' = result := by
      cases m with
      | get => exact absurd rfl hm
      | set => exact hresult
      | del => exact hresult
    subst hresult'
    exact Or.inl (Or.inl ⟨d, key, val, hworker, hdk⟩)
  | begin d key info _ _ _ _ _ _ =>
    rcases h with hworker | ⟨hphase, _⟩
    · exact Or.inl (Or.inl hworker)
    · exact absurd rfl hphase
  | finish ch' hclear hcreate =>
    rcases h with ⟨d, key, val, hworker, hdk⟩ | ⟨_, _, j, hj, _⟩
    · rw [hcreate.frame.right.left] at hworker
      exact Or.inl (Or.inl ⟨d, key, val, hworker, hdk⟩)
    rw [returned_of_none] at hj
    · cases hj
    · rw [hcreate.frame.right.right.right]
      rfl
  | drain hdrain _ =>
    rcases h with hworker | ⟨_, hret⟩
    · exact Or.inl (Or.inl hworker)
    · refine Or.inl (Or.inr ⟨?_, hret⟩)
      rw [hdrain]
      exact HandOff.Phase.noConfusion

end Redisoo
