import AuditedPetitions.Cache.Memory
import AuditedPetitions.Petition.Config

/-! How petitions and listings are cached: under which keys, in which form and for how long. The
keys of all listings begin with the key of the whole listing, and no key of a petition does. -/

namespace AuditedPetitions

namespace CacheKey

/-- The whole listing. -/
def listing : String := "petitions"

def petition (id : Uuid) : String := "petition:" ++ id.text

def page (number limit : Int64) : String :=
  listing ++ ":page:" ++ Numeral.intText number.toInt ++ ":limit:" ++ Numeral.intText limit.toInt

end CacheKey

/-- Key of a listing request; a window that is no page has none. -/
def PageRequest.cacheKey? : PageRequest → Option String
  | .all => some CacheKey.listing
  | .page limit _ number => number.map fun n => CacheKey.page n limit

def Petition.codec : Cache.Codec Petition := ⟨Petition.toJson, Petition.ofDocument?⟩

/-- Lifetime of the whole listing, by a number that was drawn. -/
def CacheConfig.listingTtl (c : CacheConfig) (draw : Nat) : UInt64 :=
  .ofNat (min (c.listingTtlMin.toNat + draw) c.listingTtlLimit.toNat)

theorem CacheConfig.listingTtl_mem (c : CacheConfig) (draw : Nat) :
    c.listingTtlMin ≤ c.listingTtl draw ∧ c.listingTtl draw ≤ c.listingTtlLimit := by
  have hle : c.listingTtlMin.toNat ≤ c.listingTtlLimit.toNat := by
    rw [← UInt64.le_iff_toNat_le]
    simp only [listingTtlLimit, Max.max]
    split
    · exact UInt64.le_refl _
    · rename_i h
      exact UInt64.le_of_lt (UInt64.not_le.1 h)
  have hlt := c.listingTtlLimit.toNat_lt
  have hval : (c.listingTtl draw).toNat =
      min (c.listingTtlMin.toNat + draw) c.listingTtlLimit.toNat := by
    simp only [listingTtl, UInt64.toNat_ofNat']
    exact Nat.mod_eq_of_lt (by omega)
  constructor <;> rw [UInt64.le_iff_toNat_le, hval] <;> omega

end AuditedPetitions
