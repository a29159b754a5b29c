import Covenant.Instance

namespace Covenant

def overlayValues (sources : List Instance) (field : String) : Option Datum :=
  sources.foldl (fun found r => (r.get? field).or found) none

/-- The fields that the sources set are laid over one another, a later source over an earlier one,
and the destination takes each of its own fields from there. -/
def combine (destination : RecordSchema) (sources : List Instance) :
    Except ContractError Instance :=
  (Instance.collect destination (overlayValues sources)).finish

end Covenant
