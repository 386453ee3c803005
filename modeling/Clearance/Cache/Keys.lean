import Clearance.Id

/-! The keys under which the tiers of the cache hold their entries. -/
namespace Clearance

def persistentKey (user : UserId) : String := "acl:all_perms:" ++ Id.text user

def sharedKey (user : UserId) : String := "acl:l1:" ++ Id.text user

def metricsKey : String := "acl:metrics"

theorem persistentKey_injective {a b : UserId} (h : persistentKey a = persistentKey b) : a = b :=
  Id.text_injective ((String.append_right_inj _).1 h)

theorem sharedKey_injective {a b : UserId} (h : sharedKey a = sharedKey b) : a = b :=
  Id.text_injective ((String.append_right_inj _).1 h)

theorem persistentKey_ne_metricsKey (user : UserId) : persistentKey user ≠ metricsKey := fun h => by
  have h := congrArg (fun s => s.toList.take 5) h
  simp only [persistentKey, metricsKey, String.toList_append] at h
  rw [List.take_append_of_le_length (by decide)] at h
  revert h
  decide

end Clearance
