/-!
# Why a configuration is rejected

A rejection names what is wrong with which part of a configuration.
-/

namespace CountAlarm

inductive Part where
  | matcher
  | metric
  | alert
  | other (name : String)
deriving DecidableEq, Repr

def Part.name : Part → String
  | .matcher => "matcher"
  | .metric => "metric"
  | .alert => "alert"
  | .other name => name

/-- The longest window that is accepted, in buckets. -/
def maxBuckets : Nat :=
  10000

inductive Fault where
  | duplicateMatcher
  | duplicateMetric
  | duplicateAlert
  | unknownMatcher (id : UInt64)
  | noBucketSize
  | zeroBucketSize
  | noBuckets
  | tooManyBuckets
  | negativeThreshold
  | other (reason : String)
deriving DecidableEq, Repr

def Fault.reason : Fault → String
  | .duplicateMatcher => "duplicate matcher id"
  | .duplicateMetric => "duplicate metric id"
  | .duplicateAlert => "duplicate alert id"
  | .unknownMatcher id => "unknown matcher " ++ toString id.toNat
  | .noBucketSize => "bucket size is not set"
  | .zeroBucketSize => "bucket_size_ns must be greater than 0"
  | .noBuckets => "num_buckets must be at least 1"
  | .tooManyBuckets => "num_buckets must be at most " ++ toString maxBuckets
  | .negativeThreshold => "trigger_if_sum_gt must not be negative"
  | .other reason => reason

/-- A fault of one part of a configuration, named by its kind and number. -/
structure Rejection where
  part : Part
  id : UInt64
  fault : Fault
deriving DecidableEq, Repr

def Rejection.message (r : Rejection) : String :=
  "Anomaly: " ++ r.part.name ++ " " ++ toString r.id.toNat ++ " rejected: " ++ r.fault.reason

end CountAlarm
