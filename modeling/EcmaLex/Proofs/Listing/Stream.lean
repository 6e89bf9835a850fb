import EcmaLex.Proofs.Listing.Trail
import EcmaLex.Proofs.Scanner.Lookahead

/-!
# Listings and the tokens of a text

The scanner is moved onto the tokens of a text one after the other, and a listing holds the
first of these, up to the first one after which nothing is listed.

## Main results

* `tokens_trail` — the tokens of a trail come one after the other.
* `Listing.tokens_ofSource` — **a listing holds the first tokens of its text**.
* `Listing.errors_ofSource` — its errors are those of its tokens.
-/

namespace EcmaLex

variable {σ : Type} [SearchableSource σ]

/-- The tokens of a trail are its first token and those after it, up to the last one. -/
theorem tokens_trail (settings : Settings) (lineBreak : Bool) (f : Findings) (r : Reader σ) :
    let token := tokensAfter settings (scanToken settings lineBreak f r).token
      (scanToken settings lineBreak f r).reader
    ∃ n, (trail settings lineBreak f r).entries.map (·.token) = (List.range (n + 1)).map token ∧
      Listing.isLast (token n) = true ∧ ∀ k < n, Listing.isLast (token k) = false := by
  fun_induction trail settings lineBreak f r with
  | case1 lineBreak f r scanned =>
    rename_i rest hlast
    exact ⟨0, rfl, hlast, nofun⟩
  | case2 lineBreak f r scanned rest hlast ih =>
    obtain ⟨n, htokens, hn, hbefore⟩ := ih
    -- what was noted before has no influence on the tokens that follow
    obtain ⟨ht, hr⟩ := scanToken_congr_findings settings false rest {} scanned.reader
    rw [ht, hr] at htokens hn hbefore
    refine ⟨n + 1, ?_, hn, fun k hk => ?_⟩
    · rw [List.range_succ_eq_map, List.map_cons, List.map_map]
      exact congrArg (scanned.token :: ·) htokens
    · cases k with
      | zero => exact Bool.eq_false_iff.2 hlast
      | succ k => exact hbefore k (Nat.lt_of_succ_lt_succ hk)

namespace Listing

/-- **A listing holds the first tokens of its text**, up to the first one after which nothing
is listed. -/
theorem tokens_ofSource (settings : Settings) (source : σ) :
    let token := (Scanner.ofSource settings source).start.stream
    ∃ n, (ofSource settings source).tokens.toList = (List.range (n + 1)).map token ∧
      isLast (token n) = true ∧ ∀ k < n, isLast (token k) = false := by
  intro token
  have htoken : token = tokensAfter settings _ _ :=
    funext (Scanner.plain_start settings source).stream_eq
  rw [htoken, ofSource_eq, Trail.tokens_appendTo]
  exact tokens_trail settings true {} (firstReader settings source)

/-- Every token that is listed is one of those that the scanner is moved onto. -/
theorem exists_stream_of_mem {settings : Settings} {source : σ} {t : Token}
    (ht : t ∈ (ofSource settings source).tokens) :
    ∃ n, t = (Scanner.ofSource settings source).start.stream n := by
  obtain ⟨n, htokens, -⟩ := tokens_ofSource settings source
  rw [← Array.mem_toList_iff, htokens] at ht
  obtain ⟨k, -, rfl⟩ := List.mem_map.1 ht
  exact ⟨k, rfl⟩

/-- The errors of a listing are those of its tokens. -/
theorem errors_ofSource (settings : Settings) (source : σ) :
    (ofSource settings source).errors.toList =
      (ofSource settings source).tokens.toList.filterMap (·.error?) := by
  rw [ofSource_eq, Trail.errors_appendTo, Trail.tokens_appendTo, List.filterMap_map]
  rfl

end Listing

end EcmaLex
