import Angstrom.Lib.FixedPoint
import Angstrom.Lib.Checked
import Angstrom.Lib.Bytes
import Angstrom.Lib.BitPack
import Angstrom.Types.Ray
import Angstrom.Contract.Basic
import Angstrom.Contract.Calldata
import Angstrom.Contract.UserOrderBuffer
import Angstrom.Types.Orders
import Angstrom.Matching.Quantities
import Angstrom.Payload.UserOrder
import Angstrom.Payload.UserOrderPade
import Angstrom.Refinement.UserOrderAmounts
import Angstrom.Contract.ConfigStore
import Angstrom.Lib.Transition
import Angstrom.Lib.TokenLedger
import Angstrom.Periphery.ControllerV1
import Angstrom.Lib.AListMap
import Angstrom.Node.PoolConfigStore
import Angstrom.Refinement.PoolConfigMirror
import Angstrom.Contract.OrderInvalidation
import Angstrom.Contract.Execution
import Angstrom.Lib.Pade
import Angstrom.Payload.Bundle
import Angstrom.Contract.BundleDecoding
import Angstrom.Refinement.BundleWireFormat
import Angstrom.Validation.UserAccounts
import Angstrom.Consensus.LeaderSelection
import Angstrom.Consensus.Rounds
import Angstrom.Contract.TickLib
import Angstrom.Contract.PoolRewards
import Angstrom.Payload.AssetState
import Angstrom.Matching.DeltaMatcher
import Angstrom.Payload.FromProposal
import Angstrom.Contract.MixedSign
import Angstrom.Contract.Settlement
import Angstrom.Contract.GrowthOutsideUpdater
import Angstrom.Matching.SqrtPrice
import Angstrom.OrderPool.PendingPool
import Angstrom.OrderPool.LimitPool
import Angstrom.OrderPool.OrderStorage
import Angstrom.OrderPool.OrderIndexer
import Angstrom.Consensus.Fairness
import Angstrom.Contract.PoolUpdates
