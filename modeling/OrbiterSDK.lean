import OrbiterSDK.Proofs.AbiConformance
import OrbiterSDK.Proofs.Affordability
import OrbiterSDK.Proofs.AnswerBounds
import OrbiterSDK.Proofs.BlockBuilding
import OrbiterSDK.Proofs.CallContexts
import OrbiterSDK.Proofs.CallLogs
import OrbiterSDK.Proofs.ChainRestart
import OrbiterSDK.Proofs.CommitReveal
import OrbiterSDK.Proofs.ContainerCopies
import OrbiterSDK.Proofs.ContractAddresses
import OrbiterSDK.Proofs.Custody
import OrbiterSDK.Proofs.EventData
import OrbiterSDK.Proofs.JsonDescriptions
import OrbiterSDK.Proofs.Logs
import OrbiterSDK.Proofs.MachineRollback
import OrbiterSDK.Proofs.Malleability
import OrbiterSDK.Proofs.MerkleProofs
import OrbiterSDK.Proofs.ReadOnlyCalls
import OrbiterSDK.Proofs.Receipts
import OrbiterSDK.Proofs.Restart
import OrbiterSDK.Proofs.RouterQuotes
import OrbiterSDK.Proofs.RouterRuns
import OrbiterSDK.Proofs.RpcRequests
import OrbiterSDK.Proofs.SafeIntExact
import OrbiterSDK.Proofs.ShareValue
import OrbiterSDK.Proofs.SignedBurns
import OrbiterSDK.Proofs.StorageOverlay
import OrbiterSDK.Proofs.SwapConditions
import OrbiterSDK.Proofs.TemplateSurvival
import OrbiterSDK.Proofs.TokenTransfers
