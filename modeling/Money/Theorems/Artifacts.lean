import Money.Artifacts

/-! What a stopped call of `artifact` leaves behind, and when the next call can go on from it. -/

namespace Money
open Checked QualificationFiles

variable {J : Type} {S : Encoding J} {q q' : QualificationFiles} {v : ArtifactValue J} {stop : Stop}

namespace QualificationFiles

/-- What both the reader and the writer accept. -/
def Passes (q : QualificationFiles) (raw : Bytes) : Prop :=
  raw.length ≤ maximumBytes ∧ ∀ encoded ∈ q.secrets, encoded = [] ∨ ¬encoded <:+: raw

/-- The next call returns the reference of `v`, with the bytes of `v` behind it. -/
def Resumes (S : Encoding J) (q : QualificationFiles) (v : ArtifactValue J) : Prop :=
  ∃ q', q.artifact S v = .ok ((v.digest S, v.relative S), q') ∧ q'.files (v.relative S) = some (v.raw S) ∧
    q'.verifyArtifact S (v.digest S) (v.relative S) = .ok (v.raw S)

theorem readBytes_eq_ok {relative : String} {found : Option Bytes} :
    q.readBytes relative = .ok found ↔ q.files relative = found ∧ ∀ raw ∈ found, q.Passes raw := by
  unfold readBytes checkSecrets Passes
  cases hfile : q.files relative with
  | none =>
    simp only [ok_iff]
    exact ⟨fun h => ⟨h, by simp [← h]⟩, And.left⟩
  | some raw =>
    simp only [ok_iff]
    constructor
    · rintro ⟨small, free, rfl⟩
      exact ⟨rfl, fun _ hr => by cases hr; exact ⟨small, free⟩⟩
    · rintro ⟨rfl, h⟩
      exact ⟨(h raw rfl).1, (h raw rfl).2, rfl⟩

theorem interrupted_eq_ok : q.interrupted S v stop = .ok q' ↔
    (∀ raw ∈ q.files (v.relative S), raw = v.raw S) ∧ v.raw S ≠ [] ∧ q.Passes (v.raw S) ∧
      q.create (v.relative S) (v.raw S) stop = q' := by
  simp only [interrupted, writeBytes, checkSecrets, ok_iff, readBytes_eq_ok]
  constructor
  · rintro ⟨_, ⟨rfl, -⟩, same, ⟨filled, small⟩, free, created⟩
    exact ⟨same, filled, ⟨small, free⟩, created⟩
  · rintro ⟨same, filled, passes, created⟩
    exact ⟨_, ⟨rfl, fun raw hraw => same raw hraw ▸ passes⟩, same, ⟨filled, passes.1⟩, passes.2, created⟩

theorem artifact_eq_ok {ref : Hash × String} :
    q.artifact S v = .ok (ref, q') ↔ q.interrupted S v (.written (v.raw S).length) = .ok q' ∧
      (v.digest S, v.relative S) = ref := by
  simp only [artifact, ok_iff, Prod.mk.injEq]
  constructor
  · rintro ⟨_, h, rfl, rfl⟩
    exact ⟨h, rfl⟩
  · rintro ⟨h, rfl⟩
    exact ⟨q', h, rfl, rfl⟩

@[simp] theorem create_secrets {relative : String} {raw : Bytes} : (q.create relative raw stop).secrets = q.secrets := by
  cases stop with
  | unopened => rfl
  | written n =>
    simp only [create]
    split <;> rfl

theorem create_files {relative : String} {raw : Bytes} {n : ℕ} :
    (q.create relative raw (.written n)).files relative = (q.files relative).or (some (raw.take n)) := by
  cases hfile : q.files relative <;> simp [create, hfile]

theorem verifyArtifact_of (found : q.files (v.relative S) = some (v.raw S)) (passes : q.Passes (v.raw S)) :
    q.verifyArtifact S (v.digest S) (v.relative S) = .ok (v.raw S) := by
  simp only [verifyArtifact, ok_iff, readBytes_eq_ok]
  exact ⟨S.hexadecimal _, _, ⟨found, by simpa using passes⟩, _, rfl, rfl, rfl⟩

/-- A call goes through exactly where the file is not there yet or holds the bytes. -/
theorem resumes_iff (filled : v.raw S ≠ []) (passes : q.Passes (v.raw S)) :
    q.Resumes S v ↔ ∀ raw ∈ q.files (v.relative S), raw = v.raw S := by
  constructor
  · rintro ⟨q', h, -⟩
    exact (interrupted_eq_ok.mp (artifact_eq_ok.mp h).1).1
  · intro same
    have found : (q.create (v.relative S) (v.raw S) (.written (v.raw S).length)).files (v.relative S) = some (v.raw S) := by
      rw [create_files, List.take_length]
      cases hfile : q.files (v.relative S) with
      | none => rfl
      | some raw => rw [same raw hfile, Option.some_or]
    refine ⟨_, artifact_eq_ok.mpr ⟨interrupted_eq_ok.mpr ⟨same, filled, passes, rfl⟩, rfl⟩, found, verifyArtifact_of found ?_⟩
    simpa [Passes] using passes

end QualificationFiles

/-- No file was created, or all of its bytes were written, or the file was there before. -/
def Stop.Clean (S : Encoding J) (q : QualificationFiles) (v : ArtifactValue J) (stop : Stop) : Prop :=
  ∀ n, stop = .written n → (v.raw S).length ≤ n ∨ (q.files (v.relative S)).isSome

/-- A call that was interrupted is resumed by the next one exactly if it left no beginning of a file behind. -/
theorem artifact_resumes_iff (h : q.interrupted S v stop = .ok q') : q'.Resumes S v ↔ stop.Clean S q v := by
  obtain ⟨same, filled, passes, rfl⟩ := interrupted_eq_ok.mp h
  rw [resumes_iff filled (by simpa [QualificationFiles.Passes] using passes)]
  cases stop with
  | unopened => simpa [Stop.Clean, create] using same
  | written n =>
    rw [create_files]
    cases hfile : q.files (v.relative S) with
    | none => simp [Stop.Clean, hfile]
    | some raw => simpa [Stop.Clean, hfile] using same raw hfile

def zeroEncoding : Encoding Unit where
  sha256 _ := String.ofList (List.replicate 64 '0')
  hexadecimal _ := by
    refine ⟨by rw [String.length_ofList, List.length_replicate], fun c hc => ?_⟩
    rw [String.toList_ofList] at hc
    exact .inr (by simp [List.eq_of_mem_replicate hc])
  jsonBytes _ := [123, 125, 10]

/-- The call stops after the last byte, before it returns. -/
theorem artifact_resumes_after_last_byte : ∃ q, interrupted zeroEncoding {} (.json ()) (.written 3) = .ok q ∧
    q.Resumes zeroEncoding (.json ()) := by
  obtain ⟨q, stopped⟩ : ∃ q, interrupted zeroEncoding {} (.json ()) (.written 3) = .ok q := ⟨_, rfl⟩
  refine ⟨q, stopped, (artifact_resumes_iff stopped).mpr ?_⟩
  rintro _ ⟨⟩
  exact .inl (le_refl _)

theorem artifact_collides : ∃ q, interrupted zeroEncoding {} (.json ()) (.written 1) = .ok q ∧
    q.artifact zeroEncoding (.json ()) = .error (.value "QUALIFICATION_ARTIFACT_COLLISION") :=
  ⟨_, rfl, rfl⟩

end Money
