import TibiaGame.ObjectIdentifiers
import TibiaGame.CronDrain
import TibiaGame.SwappingRuns
import TibiaGame.RingRuns
import TibiaGame.PartyRuns
import TibiaGame.PacketFraming
import TibiaGame.SendRuns
import TibiaGame.KnownAgreement
import TibiaGame.TemporaryBans
import TibiaGame.ReaderQueues
import TibiaGame.PrivateChannels
import TibiaGame.PoolExclusivity
import TibiaGame.StickyGame
import TibiaGame.SlotDiscipline
import TibiaGame.ToDoBeats
import TibiaGame.QueryPool
import TibiaGame.TradeInspection
import TibiaGame.NpcQueue
import TibiaGame.AttackerMarks
import TibiaGame.IdleDetection
import TibiaGame.SummonCounts
import TibiaGame.SectorRefresh
import TibiaGame.TruncatedPaths
import TibiaGame.Shortway
import TibiaGame.InventoryAgreement
import TibiaGame.InventoryExchange
import TibiaGame.SkillTimers
import TibiaGame.SpawnCompleteness
import TibiaGame.QueryFraming
import TibiaGame.PlayerIndex
import TibiaGame.MailDelivery
import TibiaGame.DeathInventory
import TibiaGame.PrivateMessages
import TibiaGame.ExperienceShares
import TibiaGame.MapDescription
import TibiaGame.QueueStorage
import TibiaGame.FifoQueue
import TibiaGame.MonsterTarget
import TibiaGame.ByteStreams
import TibiaGame.Throwing
import TibiaGame.GameBeats
