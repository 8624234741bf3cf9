import OceanChat.Auth.DisabledUsers
import OceanChat.Auth.Exchange
import OceanChat.Auth.Footprint
import OceanChat.Auth.Lifetimes
import OceanChat.Auth.Orphans
import OceanChat.Auth.Refusals
import OceanChat.Auth.Replays
import OceanChat.Auth.Revocation
import OceanChat.Auth.Service
import OceanChat.Auth.Sessions
import OceanChat.Authorization.BatchedChecks
import OceanChat.Authorization.EmptyRoles
import OceanChat.Authorization.LruCache
import OceanChat.Authorization.PermissionChecker
import OceanChat.Authorization.PermissionGuard
import OceanChat.Authorization.Recency
import OceanChat.Authorization.RevokedRoles
import OceanChat.Authorization.RoleCache
import OceanChat.Authorization.RoomAccess
import OceanChat.Common.AppException
import OceanChat.Common.BaseNatsSubscriber
import OceanChat.Common.DeadLetter
import OceanChat.Common.DeliveryLimit
import OceanChat.Common.EventPayload
import OceanChat.Common.ExceptionFilter
import OceanChat.Common.MonkeyWsExceptionFilter
import OceanChat.Common.StreamProvisioner
import OceanChat.Common.SubscriberStart
import OceanChat.Core.Aead
import OceanChat.Core.Aggregation
import OceanChat.Core.Ancestors
import OceanChat.Core.ByteBuffer
import OceanChat.Core.Checks
import OceanChat.Core.Decimal
import OceanChat.Core.Double
import OceanChat.Core.HashStore
import OceanChat.Core.InsertionMap
import OceanChat.Core.Json
import OceanChat.Core.JsonBytes
import OceanChat.Core.LruMap
import OceanChat.Core.PendingWrites
import OceanChat.Core.Protobuf
import OceanChat.Core.Rotation
import OceanChat.Core.Runs
import OceanChat.Core.SegmentOrder
import OceanChat.Core.SegmentPool
import OceanChat.Core.SubjectStreams
import OceanChat.Core.TaskTales
import OceanChat.Core.TtlStore
import OceanChat.Core.Upsert
import OceanChat.Core.Utf8
import OceanChat.Core.Wire
import OceanChat.Core.WorkPool
import OceanChat.Cores.AsyncQueue
import OceanChat.Cores.AtMostOnce
import OceanChat.Cores.Callers
import OceanChat.Cores.Idempotency
import OceanChat.Cores.Replay
import OceanChat.Cores.Slots
import OceanChat.Gateway.AuthController
import OceanChat.Gateway.CircuitBreakers
import OceanChat.Gateway.ErrorRelay
import OceanChat.Gateway.FanOut
import OceanChat.Gateway.NatsEvents
import OceanChat.Gateway.RefreshCookie
import OceanChat.Gateway.Suppression
import OceanChat.Gateway.TokenBlacklist
import OceanChat.IdGenerator.Attempts
import OceanChat.IdGenerator.Comparison
import OceanChat.IdGenerator.Economy
import OceanChat.IdGenerator.Order
import OceanChat.IdGenerator.Refinement
import OceanChat.IdGenerator.Representation
import OceanChat.IdGenerator.Rollback
import OceanChat.IdGenerator.Scripts
import OceanChat.IdGenerator.Service
import OceanChat.IdGenerator.SlowPath
import OceanChat.Models.ChangeStream
import OceanChat.Monkey.ExceptionAck
import OceanChat.Monkey.ExceptionFrames
import OceanChat.Monkey.Flags
import OceanChat.Monkey.Framer
import OceanChat.Monkey.Header
import OceanChat.Monkey.Processor
import OceanChat.Monkey.Proto
import OceanChat.Monkey.ReqId
import OceanChat.Publisher.Bounds
import OceanChat.Publisher.Delivery
import OceanChat.Publisher.Quotas
import OceanChat.Publisher.Service
import OceanChat.Redis.Contention
import OceanChat.Redis.GetOrSet
import OceanChat.Redis.Lock
import OceanChat.Redis.LockUsers
import OceanChat.Settings.Codec
import OceanChat.Settings.Seeding
import OceanChat.Settings.Service
import OceanChat.Settings.Visibility
import OceanChat.User.Accounts
import OceanChat.User.Credentials
import OceanChat.User.DeviceIds
import OceanChat.User.Devices
import OceanChat.User.LocalPassword
import OceanChat.User.LoginEffect
import OceanChat.User.LoginTimes
import OceanChat.User.NatsEvents
import OceanChat.User.Registration
