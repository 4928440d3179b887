import PartnerChains.Verification.AuthoritySelection.KeysCodec
import PartnerChains.Verification.AuthoritySelection.Registrations
import PartnerChains.Verification.AuthoritySelection.SessionKeys
import PartnerChains.Verification.BlockSearch.LatestBlock
import PartnerChains.Verification.BlockSource.Transparency
import PartnerChains.Verification.Bridge.Accounting
import PartnerChains.Verification.Bridge.Amounts
import PartnerChains.Verification.Bridge.Concurrency
import PartnerChains.Verification.Bridge.EndToEnd
import PartnerChains.Verification.Bridge.Lookahead
import PartnerChains.Verification.Candidates.Transparency
import PartnerChains.Verification.Cli.ConfigFields
import PartnerChains.Verification.Committee.Agreement
import PartnerChains.Verification.Committee.Migration
import PartnerChains.Verification.Committee.Query
import PartnerChains.Verification.Committee.Service
import PartnerChains.Verification.Datum.Malformed
import PartnerChains.Verification.Datum.Meaning
import PartnerChains.Verification.Datum.Unambiguous
import PartnerChains.Verification.DbSync.InputLinks
import PartnerChains.Verification.Domain.Addresses
import PartnerChains.Verification.Epochs.Slots
import PartnerChains.Verification.Governance.Threshold
import PartnerChains.Verification.GovernedMap.Concurrency
import PartnerChains.Verification.GovernedMap.Replay
import PartnerChains.Verification.GovernedMap.Tracking
import PartnerChains.Verification.McHash.Correctness
import PartnerChains.Verification.Metadata.Deposits
import PartnerChains.Verification.Participation.SelectedStake
import PartnerChains.Verification.Participation.StakeDistribution
import PartnerChains.Verification.ProductionLog.Integrity
import PartnerChains.Verification.Selection.Ariadne
import PartnerChains.Verification.Selection.ExpectedSeats
import PartnerChains.Verification.Selection.Randomness
import PartnerChains.Verification.Session.Authors
import PartnerChains.Verification.Session.Disabling
import PartnerChains.Verification.SmartContracts.Lookups
import PartnerChains.Verification.SmartContracts.Upserts
