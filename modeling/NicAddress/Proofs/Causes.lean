import NicAddress.Proofs.AdapterTable.Run
import NicAddress.Proofs.AddressList.Run
import NicAddress.Proofs.ArpTable.Run
import NicAddress.Proofs.Device.Run

/-! # The cause of a failure

The error of a call becomes a cause by the step that it comes from. Only the question for an address
is classified by its error, and then the error means that there is no such device, that access is
denied, or something else. Every other failing call is reported as such, whatever its error.
-/
namespace NicAddress
namespace OsError

/-- There is no such device: by its kind, or by one of two numbers. -/
def SaysMissing (e : OsError) : Prop := e.kind? = some .notFound ∨ e = .errno 19 ∨ e = .errno 6

def SaysDenied (e : OsError) : Prop := e.kind? = some .permissionDenied

def SaysOther (e : OsError) : Prop := ¬ e.SaysMissing ∧ ¬ e.SaysDenied

theorem isMissingDevice_iff {e : OsError} :
    e.isMissingDevice = true ↔ e = .errno 19 ∨ e = .errno 6 := by
  cases e with
  | errno code =>
    simp only [isMissingDevice, Bool.or_eq_true, decide_eq_true_eq, errno.injEq]
    rfl
  | plain kind => simp [isMissingDevice]
  | custom kind message => simp [isMissingDevice]

/-- No error says both: the two numbers have no kind that counts. -/
theorem SaysMissing.not_saysDenied {e : OsError} (h : e.SaysMissing) : ¬ e.SaysDenied := by
  rcases h with h | rfl | rfl
  · simp [SaysDenied, h]
  · simp [SaysDenied, kind?]
  · simp [SaysDenied, kind?]

end OsError

namespace LookupError

variable (call : String) (index : Index) {e : OsError}

theorem ofOs_of_saysMissing (h : e.SaysMissing) : ofOs call index e = .noSuchInterface index := by
  rcases h with h | rfl | rfl
  · simp [ofOs, h]
  · rfl
  · rfl

theorem ofOs_of_saysDenied (h : e.SaysDenied) : ofOs call index e = .permissionDenied e := by
  have hk : e.kind? = some .permissionDenied := h
  simp [ofOs, hk]

theorem ofOs_of_saysOther (h : e.SaysOther) : ofOs call index e = .osCall call e := by
  obtain ⟨hm, hd⟩ := h
  have hn : e.kind? ≠ some .notFound := fun hk => hm (Or.inl hk)
  have hp : e.kind? ≠ some .permissionDenied := hd
  have hi : ¬ e.isMissingDevice = true := fun hi => hm (Or.inr (OsError.isMissingDevice_iff.mp hi))
  unfold ofOs
  split
  · contradiction
  · contradiction
  · rw [if_neg hi]

end LookupError

/-- The causes that a result can name, each exactly under its condition. -/
structure Classified (result : Except LookupError Mac) (missing : Prop) (denied : OsError → Prop)
    (failed : String → OsError → Prop) : Prop where
  notFound_iff : (∃ cause, result = .error cause ∧ cause.isNotFound = true) ↔ missing
  denied_iff : ∀ e, result = .error (.permissionDenied e) ↔ denied e
  failed_iff : ∀ call e, result = .error (.osCall call e) ↔ failed call e
  supported : result ≠ .error .unsupported

namespace Classified

variable {missing : Prop} {denied : OsError → Prop} {failed : String → OsError → Prop}

theorem address {m : Mac} (hm : ¬ missing) (hd : ∀ e, ¬ denied e) (hf : ∀ call e, ¬ failed call e) :
    Classified (.ok m) missing denied failed := by
  constructor
  · simpa using hm
  · intro e
    simpa using hd e
  · intro call e
    simpa using hf call e
  · simp

theorem absent {cause : LookupError} (hc : cause.isNotFound = true) (hm : missing)
    (hd : ∀ e, ¬ denied e) (hf : ∀ call e, ¬ failed call e) :
    Classified (.error cause) missing denied failed := by
  constructor
  · simpa [hc] using hm
  · intro e
    refine iff_of_false ?_ (hd e)
    rintro ⟨⟩
    cases hc
  · intro call e
    refine iff_of_false ?_ (hf call e)
    rintro ⟨⟩
    cases hc
  · rintro ⟨⟩
    cases hc

theorem reported {call : String} {e : OsError} (hm : ¬ missing) (hd : ∀ e, ¬ denied e)
    (hf : ∀ call' e', failed call' e' ↔ call' = call ∧ e' = e) :
    Classified (.error (.osCall call e)) missing denied failed := by
  constructor
  · simpa [LookupError.isNotFound] using hm
  · intro e'
    simpa using hd e'
  · intro call' e'
    rw [hf]
    simp [eq_comm]
  · simp

/-- The error of a question is classified by what it says. -/
theorem asked {call : String} {index : Index} {e : OsError} (hm : missing ↔ e.SaysMissing)
    (hd : ∀ e', denied e' ↔ e' = e ∧ e.SaysDenied)
    (hf : ∀ call' e', failed call' e' ↔ call' = call ∧ e' = e ∧ e.SaysOther) :
    Classified (.error (.ofOs call index e)) missing denied failed := by
  by_cases h : e.SaysMissing
  · rw [LookupError.ofOs_of_saysMissing call index h]
    refine absent rfl (hm.mpr h) ?_ ?_
    · intro e' he
      exact h.not_saysDenied ((hd e').mp he).2
    · intro call' e' he
      exact ((hf call' e').mp he).2.2.1 h
  · by_cases h' : e.SaysDenied
    · rw [LookupError.ofOs_of_saysDenied call index h']
      constructor
      · simpa [LookupError.isNotFound] using fun hx => h (hm.mp hx)
      · intro e'
        rw [hd]
        simp [h', eq_comm]
      · intro call' e'
        rw [hf]
        simp [OsError.SaysOther, h']
      · simp
    · rw [LookupError.ofOs_of_saysOther call index ⟨h, h'⟩]
      refine reported (fun hx => h (hm.mp hx)) ?_ ?_
      · intro e' he
        exact h' ((hd e').mp he).2
      · intro call' e'
        rw [hf]
        simp [OsError.SaysOther, h, h']

end Classified

variable {σ : Type}

namespace Device

variable (os : Os Answer σ) (s : σ) (stem : String) (index : Index)

/-- No socket is opened for the device. -/
def OpenFails (e : OsError) : Prop :=
  Admissible (name stem index) ∧ os.Gives s [⟨.openSocket, .error e⟩]

/-- A socket is opened, but the question for the device is not answered. -/
def QueryFails (e : OsError) : Prop :=
  Admissible (name stem index) ∧ ∃ socket, os.Gives s
    [⟨.openSocket, .ok socket⟩, ⟨.hardwareAddress socket (name stem index), .error e⟩]

def Missing : Prop :=
  ¬ Admissible (name stem index) ∨ ∃ e, QueryFails os s stem index e ∧ e.SaysMissing

def Denied (e : OsError) : Prop := QueryFails os s stem index e ∧ e.SaysDenied

def Failed (call : String) (e : OsError) : Prop :=
  call = "socket" ∧ OpenFails os s stem index e ∨
    call = "SIOCGIFHWADDR" ∧ QueryFails os s stem index e ∧ e.SaysOther

theorem classified_lookup :
    Classified ((lookup stem index).run os s).result (Missing os s stem index)
      (Denied os s stem index) (Failed os s stem index) := by
  unfold Missing Denied Failed
  rcases lookup_exits os s stem index with ha | ⟨ha, ⟨e, h⟩ | ⟨socket, answer, h⟩⟩
  · rw [run_lookup_inadmissible os s ha]
    refine Classified.absent rfl (Or.inl ha) ?_ ?_ <;> simp [QueryFails, OpenFails, ha]
  · rw [run_lookup_unopened os s ha h]
    simp only [Os.gives_cons] at h
    refine Classified.reported ?_ ?_ ?_ <;>
      simp [QueryFails, OpenFails, ha, h.1, eq_comm]
  · rw [run_lookup_asked os s ha h]
    simp only [Os.gives_cons] at h
    cases answer with
    | ok m =>
      refine Classified.address ?_ ?_ ?_ <;> simp [QueryFails, OpenFails, ha, h.1, h.2.1]
    | error e =>
      refine Classified.asked ?_ ?_ ?_ <;>
        simp [QueryFails, OpenFails, ha, h.1, h.2.1, eq_comm]

end Device

namespace AddressList

variable (os : Os Answer σ) (s : σ) (index : Index)

/-- A list is handed out, but no entry that qualifies is left at the index. -/
def Missing : Prop :=
  ∃ snapshot, os.Gives s [⟨.snapshot, .ok snapshot⟩] ∧
    snapshot.entries.countP Entry.qualifies ≤ index.toNat

def Failed (call : String) (e : OsError) : Prop :=
  call = "getifaddrs" ∧ os.Gives s [⟨.snapshot, .error e⟩]

theorem classified_lookup :
    Classified ((lookup index).run os s).result (Missing os s index) (fun _ => False)
      (Failed os s) := by
  unfold Missing Failed
  rcases lookup_exits os s with ⟨e, h⟩ | ⟨snapshot, h⟩
  · rw [run_lookup_refused os s h]
    simp only [Os.gives_cons] at h
    refine Classified.reported ?_ ?_ ?_ <;> simp [h.1, eq_comm]
  · have hl := length_filterMap_link? snapshot.entries
    rw [run_lookup_scanned os s h]
    simp only [Os.gives_cons] at h
    simp only [result_run_scan]
    cases hf : (snapshot.entries.filterMap Entry.link?)[index.toNat]? with
    | none =>
      rw [List.getElem?_eq_none_iff, hl] at hf
      refine Classified.absent rfl ?_ ?_ ?_ <;> simp [h.1, hf]
    | some payload =>
      obtain ⟨hlt, -⟩ := List.getElem?_eq_some_iff.mp hf
      rw [hl] at hlt
      refine Classified.address ?_ ?_ ?_ <;> simp [h.1, hlt]

end AddressList

namespace ArpTable

variable (os : Os Answer σ) (s : σ) (index : Index)

/-- A call in front of the question fails; all before it have succeeded. -/
def CallFails (call : String) (e : OsError) : Prop :=
  index = 0 ∧
    (call = "gethostname" ∧ os.Gives s [⟨.hostname, .error e⟩] ∨
      call = "resolve" ∧
        (∃ host, os.Gives s [⟨.hostname, .ok host⟩, ⟨.resolve host, .error e⟩]) ∨
      call = "socket" ∧ ∃ host ip, os.Gives s
        [⟨.hostname, .ok host⟩, ⟨.resolve host, .ok ip⟩, ⟨.openSocket, .error e⟩])

def QueryFails (e : OsError) : Prop :=
  index = 0 ∧ ∃ host ip socket, os.Gives s
    [⟨.hostname, .ok host⟩, ⟨.resolve host, .ok ip⟩, ⟨.openSocket, .ok socket⟩,
      ⟨.hardwareAddress socket ip, .error e⟩]

def Missing : Prop := index ≠ 0 ∨ ∃ e, QueryFails os s index e ∧ e.SaysMissing

def Denied (e : OsError) : Prop := QueryFails os s index e ∧ e.SaysDenied

def Failed (call : String) (e : OsError) : Prop :=
  CallFails os s index call e ∨ call = "SIOCGARP" ∧ QueryFails os s index e ∧ e.SaysOther

theorem classified_lookup :
    Classified ((lookup index).run os s).result (Missing os s index) (Denied os s index)
      (Failed os s index) := by
  unfold Missing Denied Failed
  rcases lookup_exits os s index with hi | ⟨rfl, ⟨e, h⟩ | ⟨host, e, h⟩ | ⟨host, ip, e, h⟩ |
    ⟨host, ip, socket, answer, h⟩⟩
  · rw [run_lookup_rejected os s hi]
    refine Classified.absent rfl (Or.inl hi) ?_ ?_ <;> simp [QueryFails, CallFails, hi]
  · rw [run_lookup_unnamed os s h]
    simp only [Os.gives_cons] at h
    refine Classified.reported ?_ ?_ ?_ <;> simp [QueryFails, CallFails, h.1, eq_comm]
  · rw [run_lookup_unresolved os s h]
    simp only [Os.gives_cons] at h
    refine Classified.reported ?_ ?_ ?_ <;> simp [QueryFails, CallFails, h.1, h.2.1, eq_comm]
  · rw [run_lookup_unopened os s h]
    simp only [Os.gives_cons] at h
    refine Classified.reported ?_ ?_ ?_ <;>
      simp [QueryFails, CallFails, h.1, h.2.1, h.2.2.1, eq_comm]
  · rw [run_lookup_asked os s h]
    simp only [Os.gives_cons] at h
    cases answer with
    | ok m =>
      refine Classified.address ?_ ?_ ?_ <;>
        simp [QueryFails, CallFails, h.1, h.2.1, h.2.2.1, h.2.2.2.1]
    | error e =>
      refine Classified.asked ?_ ?_ ?_ <;>
        simp [QueryFails, CallFails, h.1, h.2.1, h.2.2.1, h.2.2.2.1, eq_comm]

end ArpTable

namespace AdapterTable

variable (os : Os Answer σ) (s : σ) (index : Index)

/-- The last query is answered with this status. -/
def LastAnswers (status : Status) : Prop :=
  ∃ history buffer, Queried history buffer status ∧ os.Gives s history

/-- The last query fills its buffer, but there is no adapter at the index. -/
def Exhausted : Prop :=
  ∃ history buffer, Queried history buffer .filled ∧
    os.Gives s (history ++ [⟨.addressAt buffer index, none⟩])

def Missing : Prop :=
  LastAnswers os s .noAdapters ∨
    (∃ code, LastAnswers os s (.failed code) ∧ (OsError.errno code.toInt32).SaysMissing) ∨
    Exhausted os s index

def Denied (e : OsError) : Prop :=
  ∃ code, LastAnswers os s (.failed code) ∧ e = .errno code.toInt32 ∧ e.SaysDenied

def Failed (call : String) (e : OsError) : Prop :=
  call = "GetAdaptersInfo" ∧
    (LastAnswers os s .overflow ∧ e = grownTable ∨
      ∃ code, LastAnswers os s (.failed code) ∧ e = .errno code.toInt32 ∧ e.SaysOther)

section LastQuery

variable {os s} {history : List (Event Answer)} {buffer : Resource} {status : Status}

theorem lastAnswers_iff (hq : Queried history buffer status) (hg : os.Gives s history)
    (status' : Status) : LastAnswers os s status' ↔ status' = status := by
  constructor
  · rintro ⟨history', buffer', hq', hg'⟩
    exact (Queried.unique os s hq' hg' hq hg).2.2
  · rintro rfl
    exact ⟨history, buffer, hq, hg⟩

theorem exhausted_iff (hq : Queried history buffer status) (hg : os.Gives s history) :
    Exhausted os s index ↔
      status = .filled ∧ (os (.addressAt buffer index) (os.after s history)).1 = none := by
  constructor
  · rintro ⟨history', buffer', hq', hg'⟩
    obtain ⟨hg', ha⟩ := (os.gives_append s).mp hg'
    obtain ⟨rfl, rfl, rfl⟩ := Queried.unique os s hq' hg' hq hg
    exact ⟨rfl, ha.1⟩
  · rintro ⟨rfl, ha⟩
    exact ⟨history, buffer, hq, (os.gives_append s).mpr ⟨hg, ha, trivial⟩⟩

end LastQuery

theorem classified_lookup :
    Classified ((lookup index).run os s).result (Missing os s index) (Denied os s)
      (Failed os s) := by
  unfold Missing Denied Failed
  obtain ⟨history, buffer, status, hq, hg⟩ := exists_queried os s
  rw [result_run_lookup os s hq hg, (run_conclude os (os.after s history) buffer status).1]
  simp only [lastAnswers_iff hq hg, exhausted_iff index hq hg]
  cases status with
  | filled =>
    cases ha : (os (.addressAt buffer index) (os.after s history)).1 with
    | none => refine Classified.absent rfl ?_ ?_ ?_ <;> simp
    | some m => refine Classified.address ?_ ?_ ?_ <;> simp
  | overflow => refine Classified.reported ?_ ?_ ?_ <;> simp
  | noAdapters => refine Classified.absent rfl ?_ ?_ ?_ <;> simp
  | failed code =>
    refine Classified.asked ?_ ?_ ?_
    · simp [codeError]
    · intro e
      simp only [codeError, Status.failed.injEq]
      constructor
      · rintro ⟨_, rfl, rfl, h⟩
        exact ⟨rfl, h⟩
      · rintro ⟨rfl, h⟩
        exact ⟨code, rfl, rfl, h⟩
    · intro call e
      simp only [codeError, Status.failed.injEq, reduceCtorEq, false_and, false_or]
      constructor
      · rintro ⟨rfl, _, rfl, rfl, h⟩
        exact ⟨rfl, rfl, h⟩
      · rintro ⟨rfl, rfl, h⟩
        exact ⟨rfl, code, rfl, rfl, h⟩

end AdapterTable

/-- For every kind of lookup, what its failures name is told by the answers of the host alone. The
same error is reported differently by the step that raised it: an error in front of the question, or
of the snapshot, is never classified. -/
theorem causes_of_lookups :
    (∀ (os : Os Device.Answer σ) (s : σ) (stem : String) (index : Index),
      Classified ((Device.lookup stem index).run os s).result (Device.Missing os s stem index)
        (Device.Denied os s stem index) (Device.Failed os s stem index)) ∧
    (∀ (os : Os AddressList.Answer σ) (s : σ) (index : Index),
      Classified ((AddressList.lookup index).run os s).result (AddressList.Missing os s index)
        (fun _ => False) (AddressList.Failed os s)) ∧
    (∀ (os : Os ArpTable.Answer σ) (s : σ) (index : Index),
      Classified ((ArpTable.lookup index).run os s).result (ArpTable.Missing os s index)
        (ArpTable.Denied os s index) (ArpTable.Failed os s index)) ∧
    ∀ (os : Os AdapterTable.Answer σ) (s : σ) (index : Index),
      Classified ((AdapterTable.lookup index).run os s).result (AdapterTable.Missing os s index)
        (AdapterTable.Denied os s) (AdapterTable.Failed os s) := by
  refine ⟨?_, ?_, ?_, ?_⟩
  · intro os s stem index
    exact Device.classified_lookup os s stem index
  · intro os s index
    exact AddressList.classified_lookup os s index
  · intro os s index
    exact ArpTable.classified_lookup os s index
  · intro os s index
    exact AdapterTable.classified_lookup os s index

end NicAddress
