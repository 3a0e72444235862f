import LosslessHermes.Doctor.Markers
import LosslessHermes.Summarize.Fallback

/-!
# Finding every broken summary

A broken summary is the output of the deterministic fallback, or a text cut off with a short
suffix that starts with a marker.
The fallback is always found, and `loadDoctorTargets` loses none of what is found. But
`inWindow` looks at the first place of a marker only. `findsDamaged_iff` says when a broken
summary is found: its marker must not be quoted in front of the window, or another marker has
to stand where it counts.
-/

namespace LosslessHermes.Doctor

/-! ## The broken contents -/

inductive DamagedContent
  | fallback (text : String) (targetTokens : Nat)
      (written : Summarize.buildDeterministicFallback text targetTokens ≠ "")
  | truncated (body suffix : String)
      (marked : Text.startsWith suffix TRUNCATED_SUMMARY_PREFIX = true)
      (short : suffix.toList.length < TRUNCATED_SUMMARY_WINDOW)
  | legacy (body suffix : String)
      (marked : Text.startsWith suffix FALLBACK_SUMMARY_MARKER = true)
      (short : suffix.toList.length < FALLBACK_SUMMARY_WINDOW)

def DamagedContent.content : DamagedContent → String
  | fallback text targetTokens _ => Summarize.buildDeterministicFallback text targetTokens
  | truncated body suffix _ _ => body ++ suffix
  | legacy body suffix _ _ => body ++ suffix

end LosslessHermes.Doctor
