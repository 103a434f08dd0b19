import AuditedPetitions.Ledger.Transaction
import AuditedPetitions.Petition.Basic

/-! The transactions that record a created petition and a cast vote on the ledger. -/

namespace AuditedPetitions

def Vote.draft (v : Vote) : Ledger.Draft :=
  ⟨.voteCast,
    .ofJson (.object [("vote_id", .ofUuid v.id), ("voter_id", .ofUuid v.voterId),
      ("petition_id", .ofUuid v.petitionId), ("vote_type", .string v.voteType.name)]),
    v.voteType.name ++ " vote on petition " ++ v.petitionId.text⟩

def Petition.draft (p : Petition) : Ledger.Draft :=
  ⟨.petitionCreated,
    .ofJson (.object [("petition_id", .ofUuid p.id), ("owner_id", .ofUuid p.ownerId),
      ("title", .string p.title), ("goal", .ofInt64 p.goal),
      ("voting_deadline", .ofInstant p.votingDeadline)]),
    "Petition " ++ p.id.text ++ " created"⟩

def Vote.event (v : Vote) (now : Instant) : Ledger.Transaction := v.draft.stamp now

def Petition.event (p : Petition) (now : Instant) : Ledger.Transaction := p.draft.stamp now

end AuditedPetitions
