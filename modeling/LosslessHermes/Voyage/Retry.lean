import LosslessHermes.Assembler.Budget
import LosslessHermes.Embeddings.BackfillTick
import Mathlib.Algebra.Order.BigOperators.Group.List

/-!
# Requests with retries

`postWithRetry` sends a request until an answer is final or the attempts are used up, and sleeps
between two of them. The outcomes of the requests are inputs; a `Retry-After` header is given by
what the two readers of the source make of it when the answer arrives.

A hint above 60 s is not waited for, because the caller holds a lock that expires after 90 s. The
bound is on one pause, and there is one before each retry (`fitsLock_iff`).
-/

namespace LosslessHermes.Voyage

def BACKOFF_BASE_MS : Nat := 500

def BACKOFF_CAP_MS : Nat := 25000

def DEFAULT_MAX_RETRIES : Int := 3

def RETRY_AFTER_HARD_CAP_MS : Nat := 5 * 60 * 1000

def LOCK_BUDGET_AWARE_RETRY_MS : Nat := 60000

def WORKER_LOCK_TTL_MS : Nat := 90 * 1000

/-! ## Answers -/

/-- What `float(header)` gives. -/
inductive ParsedFloat
  | finite (x : ℚ)
  | infinite (negative : Bool)
  | nan
  deriving DecidableEq, Repr

/-- What `parsedate_to_datetime(header)` gives, as the distance of the date from now. -/
inductive ParsedDate
  | unreadable
  | crashed (error : String)
  | inMillis (delta : Int)
  deriving DecidableEq, Repr

/-- A header that is not empty. A number is none on a `ValueError`. -/
structure RetryAfterHeader where
  number : Option ParsedFloat
  date : ParsedDate
  deriving DecidableEq, Repr

structure HttpResponse where
  statusCode : Nat
  retryAfter : Option RetryAfterHeader
  /-- None when the text of the body cannot be read. -/
  text : Option String
  deriving DecidableEq, Repr

inductive HttpOutcome
  /-- A timeout or an error of the network. -/
  | failed (error : String)
  | crashed (error : String)
  | response (resp : HttpResponse)
  deriving DecidableEq, Repr

structure VoyageError where
  kind : VoyageErrorKind
  message : String
  status : Option Nat
  retryAfterMs : Option Nat
  responseBody : Option String
  deriving DecidableEq, Repr

inductive PostResult
  | returned (resp : HttpResponse)
  | raised (error : VoyageError)
  | crashed (error : String)
  deriving DecidableEq, Repr

def backoffMs (attempt : Nat) : Nat :=
  min (BACKOFF_BASE_MS * 2 ^ attempt) BACKOFF_CAP_MS

def safeReadBody (resp : HttpResponse) : String :=
  match resp.text with
  | none => ""
  | some text =>
      if 800 < text.toList.length then String.ofList (text.toList.take 800) ++ "…(truncated)"
      else text

def contains (body word : String) : Bool :=
  body.toList.tails.any word.toList.isPrefixOf

def summarizeBody (body : String) : String :=
  if contains body "\"input\"" || contains body "\"texts\"" || contains body "\"documents\"" then
    "input echoed in error body — suppressed for privacy"
  else String.ofList (body.toList.take 200)

/-- `int(as_num * 1000)`, in doubles: a product beyond the greatest one is infinite. -/
def millisOf (x : ℚ) : Except String Nat :=
  let product := Assembler.nearestDouble (x * 1000)
  if product < 2 ^ (1024 : Nat) then .ok ⌊product⌋.toNat
  else .error "cannot convert float infinity to integer"

def parseRetryAfterMs (header : Option RetryAfterHeader) : Except String (Option Nat) :=
  let ofDate (date : ParsedDate) : Except String (Option Nat) :=
    match date with
    | .unreadable => .ok none
    | .crashed error => .error error
    | .inMillis delta =>
        .ok (if delta ≤ 0 then none else some (min delta.toNat RETRY_AFTER_HARD_CAP_MS))
  match header with
  | none => .ok none
  | some header =>
      match header.number with
      | some (.finite x) =>
          if 0 ≤ x then (millisOf x).map fun ms => some (min ms RETRY_AFTER_HARD_CAP_MS)
          else ofDate header.date
      | _ => ofDate header.date

/-! ## The loop -/

/-- How an attempt ends: for good, or with a pause and the error that it leaves behind. -/
inductive AttemptEnd
  | final (result : PostResult)
  | pause (ms : Nat) (lastErr : VoyageError)
  deriving DecidableEq, Repr

def attemptText (maxRetries : Int) (attempt : Nat) : String :=
  "(attempt " ++ toString (attempt + 1) ++ "/" ++ toString (maxRetries + 1) ++ ")"

/-- An error that is worth another attempt, as long as one is left. -/
def retryOrRaise (maxRetries : Int) (attempt : Nat) (ms : Nat) (error : VoyageError) :
    AttemptEnd :=
  if (attempt : Int) < maxRetries then .pause ms error else .final (.raised error)

def handleResponse (maxRetries : Int) (inputCount attempt : Nat) (resp : HttpResponse) :
    AttemptEnd :=
  let status := resp.statusCode
  let bodyText := safeReadBody resp
  if 200 ≤ status ∧ status < 300 then .final (.returned resp)
  else if status = 401 ∨ status = 403 then
    .final (.raised ⟨.auth, "voyage_auth: " ++ toString status ++ " (check VOYAGE_API_KEY)",
      some status, none, some (summarizeBody bodyText)⟩)
  else if status = 400 then
    .final (.raised ⟨.badRequest, "voyage_400: bad request on " ++ toString inputCount ++
      " inputs (" ++ summarizeBody bodyText ++ ")", some status, none,
      some (summarizeBody bodyText)⟩)
  else if status = 429 then
    match parseRetryAfterMs resp.retryAfter with
    | .error error => .final (.crashed error)
    | .ok retryAfter =>
        let lastErr : VoyageError := ⟨.rateLimit, "voyage_429: rate limited " ++
          attemptText maxRetries attempt, some status, retryAfter, some (summarizeBody bodyText)⟩
        if retryAfter.getD 0 ≤ LOCK_BUDGET_AWARE_RETRY_MS then
          retryOrRaise maxRetries attempt (retryAfter.getD (backoffMs attempt)) lastErr
        else .final (.raised lastErr)
  else if 500 ≤ status ∧ status < 600 then
    retryOrRaise maxRetries attempt (backoffMs attempt)
      ⟨.serverError, "voyage_5xx: " ++ toString status ++ " " ++ attemptText maxRetries attempt,
        some status, none, some (summarizeBody bodyText)⟩
  else
    .final (.raised ⟨.badRequest, "voyage_4xx: " ++ toString status ++ " " ++
      summarizeBody bodyText, some status, none, some (summarizeBody bodyText)⟩)

def handle (maxRetries : Int) (inputCount attempt : Nat) : HttpOutcome → AttemptEnd
  | .failed error =>
      retryOrRaise maxRetries attempt (backoffMs attempt)
        ⟨.network, "voyage_network: " ++ error ++ " " ++ attemptText maxRetries attempt,
          none, none, none⟩
  | .crashed error => .final (.crashed error)
  | .response resp => handleResponse maxRetries inputCount attempt resp

/-- The pauses of a call and the number of its requests. -/
structure PostRun where
  pauses : List Nat
  requests : Nat
  result : PostResult
  deriving DecidableEq, Repr

/-- The iterations of `range` that are left, with the number of the next one. -/
def postAttempts (maxRetries : Int) (inputCount : Nat) (outcomes : Nat → HttpOutcome) :
    Nat → Nat → Option VoyageError → PostRun
  | 0, _, lastErr =>
      ⟨[], 0, .raised (lastErr.getD ⟨.unexpected,
        "voyage_unexpected: _post_with_retry exited loop without response", none, none, none⟩)⟩
  | left + 1, attempt, _ =>
      match handle maxRetries inputCount attempt (outcomes attempt) with
      | .final result => ⟨[], 1, result⟩
      | .pause ms error =>
          let later := postAttempts maxRetries inputCount outcomes left (attempt + 1) (some error)
          ⟨ms :: later.pauses, later.requests + 1, later.result⟩

def postWithRetry (maxRetries : Int) (inputCount : Nat) (outcomes : Nat → HttpOutcome) :
    PostRun :=
  postAttempts maxRetries inputCount outcomes (maxRetries + 1).toNat 0 none

/-- The pauses of a call stay below the life of the lock, and no retry is made beyond the
configured ones. -/
structure FitsLock (maxRetries : Int) (inputCount : Nat) (outcomes : Nat → HttpOutcome) :
    Prop where
  pauses : (postWithRetry maxRetries inputCount outcomes).pauses.sum < WORKER_LOCK_TTL_MS
  requests : (postWithRetry maxRetries inputCount outcomes).requests ≤ (maxRetries + 1).toNat

/-! ## What the outcomes ask for -/

/-- The pause before another attempt; none when the outcome is final. -/
def askedPause (attempt : Nat) : HttpOutcome → Option Nat
  | .failed _ => some (backoffMs attempt)
  | .crashed _ => none
  | .response resp =>
      if resp.statusCode = 429 then
        match parseRetryAfterMs resp.retryAfter with
        | .error _ => none
        | .ok none => some (backoffMs attempt)
        | .ok (some ms) => if ms ≤ LOCK_BUDGET_AWARE_RETRY_MS then some ms else none
      else if 500 ≤ resp.statusCode ∧ resp.statusCode < 600 then some (backoffMs attempt)
      else none

/-- The pauses asked for until an outcome is final, at most as many as there are retries. -/
def askedPauses (outcomes : Nat → HttpOutcome) : Nat → Nat → List Nat
  | 0, _ => []
  | retries + 1, attempt =>
      match askedPause attempt (outcomes attempt) with
      | none => []
      | some ms => ms :: askedPauses outcomes retries (attempt + 1)

variable {maxRetries : Int} {inputCount attempt : Nat} {outcomes : Nat → HttpOutcome}

theorem backoffMs_le (attempt : Nat) : backoffMs attempt ≤ LOCK_BUDGET_AWARE_RETRY_MS :=
  (Nat.min_le_right _ _).trans (by decide)

theorem askedPause_le {outcome : HttpOutcome} {ms : Nat}
    (h : askedPause attempt outcome = some ms) : ms ≤ LOCK_BUDGET_AWARE_RETRY_MS := by
  have hBackoff := backoffMs_le attempt
  unfold askedPause at h
  split at h
  · cases h
    exact hBackoff
  · cases h
  · split at h
    · split at h
      · cases h
      · cases h
        exact hBackoff
      · split at h
        · rename_i hLe
          cases h
          exact hLe
        · cases h
    · split at h
      · cases h
        exact hBackoff
      · cases h

theorem askedPauses_length_le (outcomes : Nat → HttpOutcome) (retries attempt : Nat) :
    (askedPauses outcomes retries attempt).length ≤ retries := by
  induction retries generalizing attempt with
  | zero => exact Nat.le_refl 0
  | succ retries ih =>
    unfold askedPauses
    split
    · exact Nat.zero_le _
    · exact Nat.succ_le_succ (ih (attempt + 1))

theorem askedPauses_le {retries ms : Nat} (h : ms ∈ askedPauses outcomes retries attempt) :
    ms ≤ LOCK_BUDGET_AWARE_RETRY_MS := by
  induction retries generalizing attempt with
  | zero => cases h
  | succ retries ih =>
    unfold askedPauses at h
    split at h
    · cases h
    · rename_i asked hAsked
      rcases List.mem_cons.mp h with rfl | hLater
      · exact askedPause_le hAsked
      · exact ih hLater

/-- Each pause is bounded, and there is one for each retry at most. -/
theorem askedPauses_sum_le (outcomes : Nat → HttpOutcome) (retries attempt : Nat) :
    (askedPauses outcomes retries attempt).sum ≤ retries * LOCK_BUDGET_AWARE_RETRY_MS := by
  have hLength := askedPauses_length_le outcomes retries attempt
  calc (askedPauses outcomes retries attempt).sum
      ≤ (askedPauses outcomes retries attempt).length * LOCK_BUDGET_AWARE_RETRY_MS := by
        simpa using List.sum_le_card_nsmul _ _ fun ms h => askedPauses_le h
    _ ≤ retries * LOCK_BUDGET_AWARE_RETRY_MS := Nat.mul_le_mul_right _ hLength

/-! ## The loop sleeps as asked -/

variable {resp : HttpResponse}

theorem handleResponse_of_rateLimit (h : resp.statusCode = 429) {retryAfter : Option Nat}
    (hParsed : parseRetryAfterMs resp.retryAfter = .ok retryAfter)
    (hHint : retryAfter.getD 0 ≤ LOCK_BUDGET_AWARE_RETRY_MS) :
    ∃ error, handleResponse maxRetries inputCount attempt resp =
      retryOrRaise maxRetries attempt (retryAfter.getD (backoffMs attempt)) error := by
  unfold handleResponse
  simp only [h, hParsed, hHint, if_true]
  exact ⟨_, rfl⟩

theorem handleResponse_of_serverError (h : 500 ≤ resp.statusCode ∧ resp.statusCode < 600) :
    ∃ error, handleResponse maxRetries inputCount attempt resp =
      retryOrRaise maxRetries attempt (backoffMs attempt) error := by
  unfold handleResponse
  have hSuccess : ¬ (200 ≤ resp.statusCode ∧ resp.statusCode < 300) := by omega
  have hAuth : ¬ (resp.statusCode = 401 ∨ resp.statusCode = 403) := by omega
  have hRequest : resp.statusCode ≠ 400 := by omega
  have hLimit : resp.statusCode ≠ 429 := by omega
  simp only [hSuccess, hAuth, hRequest, hLimit, h, and_self, if_true, if_false]
  exact ⟨_, rfl⟩

/-- Only a rate limit and an error of the server are tried again. -/
theorem handleResponse_final (hLimit : resp.statusCode ≠ 429)
    (hServer : ¬ (500 ≤ resp.statusCode ∧ resp.statusCode < 600)) :
    ∃ result, handleResponse maxRetries inputCount attempt resp = .final result := by
  unfold handleResponse
  simp only [hLimit, hServer, if_false]
  split
  · exact ⟨_, rfl⟩
  · split
    · exact ⟨_, rfl⟩
    · split <;> exact ⟨_, rfl⟩

/-- A rate limit whose hint cannot be read or is not waited for is final. -/
theorem handleResponse_final_of_rateLimit (h : resp.statusCode = 429)
    (hParsed : ∀ retryAfter, parseRetryAfterMs resp.retryAfter = .ok retryAfter →
      ¬ retryAfter.getD 0 ≤ LOCK_BUDGET_AWARE_RETRY_MS) :
    ∃ result, handleResponse maxRetries inputCount attempt resp = .final result := by
  unfold handleResponse
  cases hHeader : parseRetryAfterMs resp.retryAfter with
  | error error => exact ⟨.crashed error, by simp [h]⟩
  | ok retryAfter => simp [h, hParsed retryAfter hHeader]

theorem handle_of_askedPause (outcome : HttpOutcome) :
    match askedPause attempt outcome with
    | none => ∃ result, handle maxRetries inputCount attempt outcome = .final result
    | some ms => ∃ error, handle maxRetries inputCount attempt outcome =
        retryOrRaise maxRetries attempt ms error := by
  cases outcome with
  | failed error => exact ⟨_, rfl⟩
  | crashed error => exact ⟨_, rfl⟩
  | response resp =>
    by_cases hLimit : resp.statusCode = 429
    · cases hParsed : parseRetryAfterMs resp.retryAfter with
      | error error =>
        simp only [askedPause, hLimit, hParsed, if_true]
        exact handleResponse_final_of_rateLimit hLimit fun _ h => by rw [hParsed] at h; cases h
      | ok retryAfter =>
        cases retryAfter with
        | none =>
          simp only [askedPause, hLimit, hParsed, if_true]
          exact handleResponse_of_rateLimit hLimit hParsed (Nat.zero_le _)
        | some ms =>
          by_cases hHint : ms ≤ LOCK_BUDGET_AWARE_RETRY_MS
          · simp only [askedPause, hLimit, hParsed, hHint, if_true]
            exact handleResponse_of_rateLimit hLimit hParsed hHint
          · simp only [askedPause, hLimit, hParsed, hHint, if_true, if_false]
            refine handleResponse_final_of_rateLimit hLimit fun _ h => ?_
            rw [hParsed] at h
            cases h
            exact hHint
    · by_cases hServer : 500 ≤ resp.statusCode ∧ resp.statusCode < 600
      · simp only [askedPause, hLimit, hServer, and_self, if_true, if_false]
        exact handleResponse_of_serverError hServer
      · simp only [askedPause, hLimit, hServer, if_false]
        exact handleResponse_final hLimit hServer

/-- The pauses are those asked for, one fewer than the attempts that are left. -/
theorem postAttempts_pauses (left attempt : Nat) (lastErr : Option VoyageError)
    (hLeft : left = (maxRetries + 1 - attempt).toNat) :
    (postAttempts maxRetries inputCount outcomes left attempt lastErr).pauses =
      askedPauses outcomes (left - 1) attempt := by
  induction left generalizing attempt lastErr with
  | zero => rfl
  | succ left ih =>
    have hHandled := @handle_of_askedPause maxRetries inputCount attempt (outcomes attempt)
    rw [Nat.add_sub_cancel]
    unfold postAttempts
    cases hAsked : askedPause attempt (outcomes attempt) with
    | none =>
      rw [hAsked] at hHandled
      obtain ⟨result, hResult⟩ := hHandled
      cases left with
      | zero => simp only [hResult, askedPauses]
      | succ left => simp only [hResult, askedPauses, hAsked]
    | some ms =>
      rw [hAsked] at hHandled
      obtain ⟨error, hError⟩ := hHandled
      cases left with
      | zero =>
        -- the last attempt raises what it would have retried
        have hLast : ¬ (attempt : Int) < maxRetries := by omega
        simp only [hError, retryOrRaise, hLast, if_false, askedPauses]
      | succ left =>
        have hMore : (attempt : Int) < maxRetries := by omega
        simp only [hError, retryOrRaise, hMore, if_true, askedPauses, hAsked]
        rw [ih (attempt + 1) (some error) (by omega), Nat.add_sub_cancel]

theorem postAttempts_requests_le (left attempt : Nat) (lastErr : Option VoyageError) :
    (postAttempts maxRetries inputCount outcomes left attempt lastErr).requests ≤ left := by
  induction left generalizing attempt lastErr with
  | zero => exact Nat.le_refl 0
  | succ left ih =>
    unfold postAttempts
    split
    · exact Nat.succ_pos left
    · exact Nat.succ_le_succ (ih (attempt + 1) _)

theorem postWithRetry_pauses :
    (postWithRetry maxRetries inputCount outcomes).pauses =
      askedPauses outcomes maxRetries.toNat 0 := by
  unfold postWithRetry
  rw [postAttempts_pauses _ 0 none (by simp)]
  congr 1
  omega

theorem fitsLock_iff_asked :
    FitsLock maxRetries inputCount outcomes ↔
      (askedPauses outcomes maxRetries.toNat 0).sum < WORKER_LOCK_TTL_MS := by
  rw [← @postWithRetry_pauses maxRetries inputCount outcomes]
  exact ⟨FitsLock.pauses, fun h => ⟨h, postAttempts_requests_le _ 0 none⟩⟩

/-! ## A service that keeps asking for a minute -/

/-- A rate limit with `Retry-After: 60`. -/
def rateLimited : HttpOutcome :=
  .response ⟨429, some ⟨some (.finite 60), .unreadable⟩, some ""⟩

theorem millisOf_sixty : millisOf 60 = .ok 60000 := by
  decide +kernel

theorem askedPause_rateLimited : askedPause attempt rateLimited = some 60000 := by
  have hParsed :
      parseRetryAfterMs (some ⟨some (.finite 60), .unreadable⟩) = .ok (some 60000) := by
    have hPos : (0 : ℚ) ≤ 60 := by norm_num
    simp only [parseRetryAfterMs, hPos, if_true, millisOf_sixty]
    rfl
  simp only [askedPause, rateLimited, hParsed, if_true]
  rfl

theorem askedPauses_rateLimited (retries attempt : Nat) :
    askedPauses (fun _ => rateLimited) retries attempt = List.replicate retries 60000 := by
  induction retries generalizing attempt with
  | zero => rfl
  | succ retries ih =>
    rw [askedPauses, askedPause_rateLimited, List.replicate_succ, ← ih (attempt + 1)]

/-- A call sleeps for less than 90 s if and only if the pauses that the outcomes ask for, at most
one for each retry, are shorter together. This is so for all outcomes if and only if there is at
most one retry. -/
theorem fitsLock_iff (maxRetries : Int) :
    (∀ inputCount outcomes, FitsLock maxRetries inputCount outcomes ↔
      (askedPauses outcomes maxRetries.toNat 0).sum < WORKER_LOCK_TTL_MS) ∧
    ((∀ inputCount outcomes, FitsLock maxRetries inputCount outcomes) ↔ maxRetries ≤ 1) := by
  refine ⟨fun _ _ => fitsLock_iff_asked, ?_⟩
  constructor
  · intro h
    have hAsked := fitsLock_iff_asked.mp (h 1 fun _ => rateLimited)
    rw [askedPauses_rateLimited, List.sum_replicate_nat] at hAsked
    unfold WORKER_LOCK_TTL_MS at hAsked
    omega
  · intro hRetries inputCount outcomes
    have hSum := askedPauses_sum_le outcomes maxRetries.toNat 0
    refine fitsLock_iff_asked.mpr (hSum.trans_lt ?_)
    unfold LOCK_BUDGET_AWARE_RETRY_MS WORKER_LOCK_TTL_MS
    omega

/-- Three hints of a minute are all waited for with the default of three retries. -/
theorem not_fitsLock :
    ¬ ∀ maxRetries inputCount outcomes, FitsLock maxRetries inputCount outcomes := by
  intro h
  have hAsked := fitsLock_iff_asked.mp (h DEFAULT_MAX_RETRIES 1 fun _ => rateLimited)
  rw [askedPauses_rateLimited] at hAsked
  exact absurd hAsked (by decide)

end LosslessHermes.Voyage
