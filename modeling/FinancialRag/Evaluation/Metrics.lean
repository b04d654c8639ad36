/-
  Ranking metrics of the evaluation (`evaluation/metrics.py`).

  Arithmetic is exact, and the logarithmic weights are a discount: any positive strictly decreasing sequence.
  Ranks are counted from zero here and from one in the source.
-/
import Mathlib.Data.List.DropRight
import FinancialRag.Lib.Discount
import FinancialRag.Lib.PyList
import FinancialRag.Lib.PyText
import FinancialRag.Lib.Rounding

set_option linter.unusedVariables false

namespace FinancialRag.Evaluation

open Rounding (roundEven)

/-! ## Identifiers -/

variable (T : PyText)

/-- `_normalise` -/
def normalise (value : String) : String :=
  String.ofList ((T.lower (T.strip value)).toList.rdropWhile (· == '/'))

/-- The identifiers of a list that are not blank, normalised. -/
def identifiers (ids : List String) : List String :=
  (ids.filter fun item => decide (T.strip item ≠ "")).map (normalise T)

/-- `expected`, a set. -/
def expectedSet (expectedIds : List String) : Finset String := (identifiers T expectedIds).toFinset

/-- `k or len(retrieved_ids)` -/
def cutoff (retrievedIds : List String) (k : Option Int) : Int :=
  match k with
  | some k => if k = 0 then retrievedIds.length else k
  | none => retrievedIds.length

def ranked (retrievedIds : List String) (k : Option Int) : List String :=
  identifiers T (PyList.slice retrievedIds (cutoff retrievedIds k))

/-! ## The metrics -/

variable {F : Type} [Field F] [LinearOrder F]

/-- The local variables of the loop. -/
structure Gains (F : Type) where
  reciprocalRank : F
  dcg : F

/-- One item of the ranking. -/
def Gains.add (d : Discount F) (expected : Finset String) (rank : Nat) (g : Gains F) (item : String) : Gains F :=
  if item ∈ expected then
    ⟨if g.reciprocalRank = 0 then 1 / (rank + 1) else g.reciprocalRank, g.dcg + d.weight rank⟩
  else g

/-- `for rank, item in enumerate(ranked, start=1)` -/
def scan (d : Discount F) (expected : Finset String) : Nat → Gains F → List String → Gains F
  | _, g, [] => g
  | rank, g, item :: items => scan d expected (rank + 1) (g.add d expected rank item) items

structure RankedMetrics (F : Type) where
  precisionAtK : F
  recallAtK : F
  mrr : F
  ndcg : F

/-- `round(share * 100, 1)` -/
def percent [FloorRing F] (share : F) : F := roundEven (share * 100) 1

/-- `ranked_retrieval_metrics` -/
def rankedRetrievalMetrics [FloorRing F] (d : Discount F) (retrievedIds expectedIds : List String) (k : Option Int) :
    RankedMetrics F :=
  let expected := expectedSet T expectedIds
  if expected = ∅ then ⟨100, 100, 100, 100⟩
  else
    let ranked := ranked T retrievedIds k
    let matched := ranked.filter fun item => decide (item ∈ expected)
    let precision : F := if ranked = [] then 0 else matched.length / ranked.length
    let recallShare : F := matched.toFinset.card / expected.card
    let gains := scan d expected 0 ⟨0, 0⟩ ranked
    let idealHits := (min (expected.card : Int) (cutoff retrievedIds k)).toNat
    let idealDcg := ∑ rank ∈ Finset.range idealHits, d.weight rank
    let ndcg := if idealDcg = 0 then 0 else gains.dcg / idealDcg
    ⟨percent precision, percent recallShare, percent gains.reciprocalRank, percent ndcg⟩

end FinancialRag.Evaluation
